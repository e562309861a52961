import Drex.Upload.Files

/-
  A workspace after a whole upload.

  Key definitions include:
    * `OrdinaryRelative`
    * `UploadList`
    * `EmptyWorkspace`
    * `fileLoc`
    * `Stored`

  Key theorems include:
    * `isTarget_of_ordinary`
    * `Stored.canOpen`
    * `Stored.step`
    * `alone_run_files`
    * `alone_run_files_fails`
-/

------------------------------------------------------------
-- Lists Of Files
------------------------------------------------------------

namespace Drex

/- A relative path of ordinary components. -/
def OrdinaryRelative (s : Str) : Prop :=
  ∃ names : List Name, names ≠ [] ∧
    (∀ n ∈ names, n.Ordinary) ∧ s = joinNames names

/- The components of a relative path. -/
def componentsOf (s : Str) : List Name :=
  (Path.ofString s).names

/-
  Files with distinct relative paths of ordinary components,
  none of which is a proper prefix of another.
-/
structure UploadList (files : List UploadFileSpec) :
    Prop where
  nonempty : files ≠ []
  ordinary :
    ∀ file ∈ files, OrdinaryRelative file.relativePath
  distinct :
    (files.map UploadFileSpec.relativePath).Nodup
  prefixFree :
    ∀ a ∈ files, ∀ b ∈ files,
      componentsOf a.relativePath <+:
          componentsOf b.relativePath →
        a.relativePath = b.relativePath

/-
  The directory may exist and holds nothing, and no file is
  on the way to it.
-/
structure EmptyWorkspace (store : Store) (l : Loc) :
    Prop where
  passable : store.Passable l
  empty : ∀ q, l <+: q → q ≠ l → store.node q = none

/- Where the server puts a file. -/
def fileLoc (workspace : Loc) (file : UploadFileSpec) : Loc :=
  workspace ++ componentsOf file.relativePath

theorem ofString_joinNames (names : List Name) :
    Path.ofString (joinNames names) =
      ⟨false, names, false, by simp⟩ := by
  have hSpelled :
      Path.toString ⟨false, names, false, by simp⟩ =
        joinNames names := by
    simp [Path.toString]
  rw [← hSpelled]
  exact Path.ofString_toString _

theorem componentsOf_joinNames (names : List Name) :
    componentsOf (joinNames names) = names := by
  unfold componentsOf
  rw [ofString_joinNames]

/- An ordinary relative path is spelled by its components. -/
theorem OrdinaryRelative.spelled
    {s : Str}
    (h : OrdinaryRelative s) :
    joinNames (componentsOf s) = s := by
  rcases h with ⟨names, hNe, hNames, rfl⟩
  rw [componentsOf_joinNames]

/- Two files of an upload do not overlap. -/
def FilesApart (a b : UploadFileSpec) : Prop :=
  ¬ Loc.Overlaps (componentsOf a.relativePath)
    (componentsOf b.relativePath)

theorem UploadList.apart
    {files : List UploadFileSpec}
    (h : UploadList files) :
    files.Pairwise FilesApart := by
  have hDistinct :
      files.Pairwise
        (fun a b => a.relativePath ≠ b.relativePath) :=
    List.pairwise_map.mp h.distinct
  apply hDistinct.imp_of_mem
  intro a b hA hB hNe hOverlaps
  rcases hOverlaps with hPrefix | hPrefix
  · exact hNe (h.prefixFree a hA b hB hPrefix)
  · exact hNe (h.prefixFree b hB a hA hPrefix).symm

/- A place in the workspace belongs to one file. -/
theorem UploadList.eq_of_fileLoc
    {files : List UploadFileSpec}
    (h : UploadList files)
    {workspace : Loc}
    {a b : UploadFileSpec}
    (hA : a ∈ files)
    (hB : b ∈ files)
    (hLoc : fileLoc workspace a = fileLoc workspace b) :
    a = b := by
  have hNames :
      componentsOf a.relativePath =
        componentsOf b.relativePath :=
    List.append_cancel_left hLoc
  have hPrefix :
      componentsOf a.relativePath <+:
        componentsOf b.relativePath := by
    rw [hNames]
  have hPath := h.prefixFree a hA b hB hPrefix
  exact List.inj_on_of_nodup_map h.distinct hA hB hPath

/- Files apart stay apart in the workspace. -/
theorem FilesApart.fileLoc
    {a b : UploadFileSpec}
    (h : FilesApart a b)
    (workspace : Loc) :
    ¬ Loc.Overlaps (fileLoc workspace a)
      (fileLoc workspace b) := by
  intro hOverlaps
  apply h
  rcases hOverlaps with hPrefix | hPrefix
  · exact Or.inl ((List.prefix_append_right_inj _).mp hPrefix)
  · exact Or.inr ((List.prefix_append_right_inj _).mp hPrefix)

end Drex

------------------------------------------------------------
-- Targets
------------------------------------------------------------

namespace Drex

/- An absolute path of ordinary names, without a separator. -/
structure PlainBase (base : Path) : Prop where
  absolute : base.absolute = true
  ordinary : ∀ n ∈ base.names, n.Ordinary
  slash : base.slash = false

/- Where a plain base puts an ordinary relative path. -/
theorem isTarget_of_ordinary
    {base : Path}
    (hBase : PlainBase base)
    {relativePath : Str}
    (h : OrdinaryRelative relativePath) :
    ∃ target, IsTarget base relativePath target ∧
      target.loc =
        base.names ++ componentsOf relativePath := by
  rcases h with ⟨names, hNe, hNames, rfl⟩
  rw [componentsOf_joinNames]
  let target : Path :=
    ⟨true, base.names ++ names, false, by simp⟩
  have hOrdinary : ∀ n ∈ target.names, n.Ordinary := by
    intro n hMem
    rcases List.mem_append.mp hMem with hMem | hMem
    · exact hBase.ordinary n hMem
    · exact hNames n hMem
  have hLoc : target.loc = base.names ++ names :=
    Path.loc_of_ordinary hOrdinary
  have hParent :
      target.parentPath.loc = target.loc.dropLast := by
    rw [hLoc]
    apply Path.loc_of_ordinary
    intro n hMem
    exact hOrdinary n (List.mem_of_mem_dropLast hMem)
  refine ⟨target, ?_, hLoc⟩
  constructor
  · exact joinNames_ne_nil hNe
  · rw [ofString_joinNames]
    exact
      Path.append_relative_normal hBase.absolute
        hBase.ordinary hNames hNe
  · rw [isSubPath_of_slash_false hBase.absolute hBase.slash]
    exact ⟨rfl, List.prefix_append _ _⟩
  · rfl
  · exact hParent
  · rw [hLoc]
    simp [hNe]

end Drex

------------------------------------------------------------
-- What Is Stored
------------------------------------------------------------

namespace Drex

variable {F : WriteFaults} {disk : LocalDisk}

/- The bytes the client sends of a file. -/
def sentOf
    (disk : LocalDisk)
    (file : UploadFileSpec) :
    Bytes :=
  (disk file.localPath).delivered

/-
  The disk after these files were handled: each that sent
  something is there, and nothing else was made.
-/
structure Stored
    (F : WriteFaults)
    (disk : LocalDisk)
    (before : Store)
    (workspace : Loc)
    (done : List UploadFileSpec)
    (store : Store) : Prop where
  files :
    ∀ file ∈ done, sentOf disk file ≠ [] →
      store.HasFile (fileLoc workspace file)
        (F.kept (fileLoc workspace file)
          (sentOf disk file))
  onlyFiles :
    ∀ q data, store.HasFile q data →
      before.HasFile q data ∨
        ∃ file ∈ done, q = fileLoc workspace file ∧
          sentOf disk file ≠ []
  onlyDirectories :
    ∀ q, store.node q = some .directory →
      before.node q = some .directory ∨
        ∃ file ∈ done,
          q <+: (fileLoc workspace file).dropLast

theorem Stored.start
    (F : WriteFaults)
    (disk : LocalDisk)
    (before : Store)
    (workspace : Loc) :
    Stored F disk before workspace [] before := by
  constructor
  · intro file hMem
    cases hMem
  · intro q data hFile
    exact Or.inl hFile
  · intro q hNode
    exact Or.inl hNode

variable {before store : Store} {workspace : Loc}
variable {done : List UploadFileSpec}
variable {file : UploadFileSpec}

/- What overlaps neither the workspace nor a stored file. -/
theorem Stored.canOpen
    (h : Stored F disk before workspace done store)
    (hEmpty : EmptyWorkspace before workspace)
    (hNames : componentsOf file.relativePath ≠ [])
    (hApart : ∀ a ∈ done, FilesApart a file) :
    store.Passable (fileLoc workspace file).dropLast ∧
      store.node (fileLoc workspace file) ≠
        some .directory := by
  have hAbove :
      ∀ q, q <+: fileLoc workspace file →
        ∀ data, ¬ before.HasFile q data := by
    intro q hPrefix data hFile
    have hWorkspace :
        workspace <+: fileLoc workspace file :=
      List.prefix_append _ _
    rcases List.prefix_or_prefix_of_prefix hPrefix hWorkspace
      with hUnder | hOver
    · exact hEmpty.passable q hUnder data hFile
    · by_cases hEq : q = workspace
      · subst hEq
        exact
          hEmpty.passable q (List.prefix_refl q) data hFile
      · have hNone := hEmpty.empty q hOver hEq
        unfold Store.HasFile at hFile
        rw [hNone] at hFile
        cases hFile
  constructor
  · intro q hPrefix data hFile
    have hLonger : q <+: fileLoc workspace file :=
      hPrefix.trans (List.dropLast_prefix _)
    rcases h.onlyFiles q data hFile with
      hOld | ⟨a, hMem, rfl, hSent⟩
    · exact hAbove q hLonger data hOld
    · exact
        (hApart a hMem).fileLoc workspace (Or.inl hLonger)
  · intro hNode
    rcases h.onlyDirectories _ hNode with
      hOld | ⟨a, hMem, hPrefix⟩
    · have hNe : fileLoc workspace file ≠ workspace := by
        unfold fileLoc
        simp [hNames]
      have hNone :=
        hEmpty.empty _ (List.prefix_append _ _) hNe
      unfold fileLoc at hOld
      rw [hNone] at hOld
      cases hOld
    · have hLonger := hPrefix.trans (List.dropLast_prefix _)
      exact
        (hApart a hMem).fileLoc workspace (Or.inr hLonger)

/- Storing one more file. -/
theorem Stored.step
    (h : Stored F disk before workspace done store)
    (hApart : ∀ a ∈ done, FilesApart a file)
    {store' : Store}
    (hNode :
      store'.node =
        Function.update
          (store.createDirectories
            (fileLoc workspace file).dropLast).node
          (fileLoc workspace file)
          (some (.file
            (F.kept (fileLoc workspace file)
              (sentOf disk file)))))
    (hSent : sentOf disk file ≠ []) :
    Stored F disk before workspace (done ++ [file])
      store' := by
  have hOther :
      ∀ q, q ≠ fileLoc workspace file →
        store'.node q =
          (store.createDirectories
            (fileLoc workspace file).dropLast).node q := by
    intro q hNe
    rw [hNode]
    exact Function.update_of_ne hNe _ _
  constructor
  · intro a hMem hSentA
    rcases List.mem_append.mp hMem with hMem | hMem
    · have hNe : fileLoc workspace a ≠
          fileLoc workspace file := by
        intro hEq
        apply (hApart a hMem).fileLoc workspace
        rw [hEq]
        exact Or.inl (List.prefix_refl _)
      have hOld := h.files a hMem hSentA
      rw [← Store.createDirectories_file_iff store
        (fileLoc workspace file).dropLast] at hOld
      unfold Store.HasFile
      rw [hOther _ hNe]
      exact hOld
    · rw [List.mem_singleton.mp hMem]
      unfold Store.HasFile
      rw [hNode]
      exact Function.update_self _ _ _
  · intro q data hFile
    by_cases hq : q = fileLoc workspace file
    · exact Or.inr ⟨file, by simp, hq, hSent⟩
    · have hOld : store.HasFile q data := by
        rw [← Store.createDirectories_file_iff store
          (fileLoc workspace file).dropLast]
        unfold Store.HasFile at hFile ⊢
        rw [← hOther q hq]
        exact hFile
      rcases h.onlyFiles q data hOld with
        hBefore | ⟨a, hMem, hLoc, hSentA⟩
      · exact Or.inl hBefore
      · exact Or.inr ⟨a, by simp [hMem], hLoc, hSentA⟩
  · intro q hDirectory
    by_cases hq : q = fileLoc workspace file
    · subst hq
      rw [hNode, Function.update_self] at hDirectory
      cases hDirectory
    · rw [hOther q hq] at hDirectory
      by_cases hMade :
          q <+: (fileLoc workspace file).dropLast
      · exact Or.inr ⟨file, by simp, hMade⟩
      · rw [Store.node_createDirectories_of_not_prefix _
          hMade] at hDirectory
        rcases h.onlyDirectories q hDirectory with
          hBefore | ⟨a, hMem, hPrefix⟩
        · exact Or.inl hBefore
        · exact Or.inr ⟨a, by simp [hMem], hPrefix⟩

/- A file that sent nothing leaves the disk as it is. -/
theorem Stored.skip
    (h : Stored F disk before workspace done store)
    (hSent : sentOf disk file = []) :
    Stored F disk before workspace (done ++ [file])
      store := by
  constructor
  · intro a hMem hSentA
    rcases List.mem_append.mp hMem with hMem | hMem
    · exact h.files a hMem hSentA
    · rw [List.mem_singleton.mp hMem] at hSentA
      exact absurd hSent hSentA
  · intro q data hFile
    rcases h.onlyFiles q data hFile with
      hBefore | ⟨a, hMem, hLoc, hSentA⟩
    · exact Or.inl hBefore
    · exact Or.inr ⟨a, by simp [hMem], hLoc, hSentA⟩
  · intro q hDirectory
    rcases h.onlyDirectories q hDirectory with
      hBefore | ⟨a, hMem, hPrefix⟩
    · exact Or.inl hBefore
    · exact Or.inr ⟨a, by simp [hMem], hPrefix⟩

end Drex

------------------------------------------------------------
-- Whole Uploads
------------------------------------------------------------

namespace Drex

namespace DownloadSession

variable {F : WriteFaults} {oracle : ServerOracle} {i : Nat}
variable {disk : LocalDisk} {before : Store} {base : Path}

/- What the upload of the next file starts from. -/
theorem next_file
    (hBase : PlainBase base)
    (hEmpty : EmptyWorkspace before base.names)
    {done : List UploadFileSpec}
    {file : UploadFileSpec}
    (hOrdinary : OrdinaryRelative file.relativePath)
    (hApart : ∀ a ∈ done, FilesApart a file)
    {s : DownloadSession}
    {st : ServerState}
    (hStored :
      Stored F disk before base.names done
        (s.settled F st.store)) :
    ∃ target, IsTarget base file.relativePath target ∧
      target.loc = fileLoc base.names file ∧
        CanOpen F s st target := by
  rcases isTarget_of_ordinary hBase hOrdinary with
    ⟨target, hTarget, hLoc⟩
  have hNames : componentsOf file.relativePath ≠ [] := by
    rcases hOrdinary with ⟨names, hNe, hAll, hSpelled⟩
    rw [hSpelled, componentsOf_joinNames]
    exact hNe
  rcases hStored.canOpen hEmpty hNames hApart with
    ⟨hPassable, hFree⟩
  have hFileLoc : target.loc = fileLoc base.names file := hLoc
  rw [← hFileLoc] at hPassable hFree
  exact ⟨target, hTarget, hFileLoc, hPassable, hFree⟩

/- One file of the list. -/
theorem alone_run_next
    (h : F.Governs oracle)
    (root : WorkspaceRoot)
    (hBase : PlainBase base)
    (hEmpty : EmptyWorkspace before base.names)
    {done : List UploadFileSpec}
    {file : UploadFileSpec}
    {chunks : List TaskFileChunk}
    (hChunks :
      FileChunks file.relativePath true chunks
        (sentOf disk file))
    (hOrdinary : OrdinaryRelative file.relativePath)
    (hApart : ∀ a ∈ done, FilesApart a file)
    (hGood :
      ¬ F.FailsWithin (fileLoc base.names file) 0
        (sentOf disk file).length)
    {s : DownloadSession}
    {st : ServerState}
    (hReceiving : s.Receiving base)
    (hStored :
      Stored F disk before base.names done
        (s.settled F st.store))
    (rest : List TaskRequest) :
    ∃ s' st',
      Core.Prog.run (alone i oracle)
          (run root s
            (chunks.map TaskRequest.fileChunk ++ rest)) st =
        Core.Prog.run (alone i oracle) (run root s' rest)
          st' ∧
      s'.Receiving base ∧
        Stored F disk before base.names (done ++ [file])
          (s'.settled F st'.store) := by
  by_cases hSent : sentOf disk file = []
  · have hNil := hChunks.nil_of_bytes hSent
    subst hNil
    exact ⟨s, st, rfl, hReceiving, hStored.skip hSent⟩
  · rcases next_file hBase hEmpty hOrdinary hApart hStored
      with ⟨target, hTarget, hLoc, hCan⟩
    rw [← hLoc] at hGood
    rcases
        alone_run_file (i := i) h root hTarget hChunks hSent
          hReceiving hCan hGood rest with
      ⟨s', st', hRun, hReceiving', hNode⟩
    rw [hLoc] at hNode
    exact
      ⟨s', st', hRun, hReceiving',
        hStored.step hApart hNode hSent⟩

/- A list of files apart, split at its first new file. -/
theorem filesApart_split
    {done files : List UploadFileSpec}
    {file : UploadFileSpec}
    (hApart : (done ++ file :: files).Pairwise FilesApart) :
    (∀ a ∈ done, FilesApart a file) ∧
      ((done ++ [file]) ++ files).Pairwise FilesApart := by
  constructor
  · intro a hMem
    have hBoth := (List.pairwise_append.mp hApart).2.2
    exact hBoth a hMem file List.mem_cons_self
  · rw [List.append_assoc, List.singleton_append]
    exact hApart

/-
  The files are handled one after the other; what is stored
  so far is the invariant.
-/
theorem alone_run_files
    (h : F.Governs oracle)
    (root : WorkspaceRoot)
    (hBase : PlainBase base)
    (hEmpty : EmptyWorkspace before base.names)
    {files done : List UploadFileSpec}
    {messages : List TaskRequest}
    (hMessages : FilesMessages disk files messages)
    (hOrdinary :
      ∀ file ∈ files, OrdinaryRelative file.relativePath)
    (hApart : (done ++ files).Pairwise FilesApart)
    (hGood :
      ∀ file ∈ files,
        ¬ F.FailsWithin (fileLoc base.names file) 0
          (sentOf disk file).length)
    {s : DownloadSession}
    {st : ServerState}
    (hReceiving : s.Receiving base)
    (hStored :
      Stored F disk before base.names done
        (s.settled F st.store)) :
    ∃ s' st',
      Core.Prog.run (alone i oracle) (run root s messages)
          st =
        ((s', Ending.success), st') ∧
      Stored F disk before base.names (done ++ files)
        st'.store := by
  induction hMessages generalizing done s st with
  | nil =>
      refine ⟨_, _, alone_run_nil h root hReceiving st, ?_⟩
      rw [List.append_nil]
      exact hStored
  | @cons file files chunks messages hChunks hMessages ih =>
      simp only [List.forall_mem_cons] at hOrdinary hGood
      rcases filesApart_split hApart with ⟨hFile, hRest⟩
      rcases
          alone_run_next (i := i) h root hBase hEmpty hChunks
            hOrdinary.1 hFile hGood.1 hReceiving hStored
            messages with
        ⟨s', st', hRun, hReceiving', hStored'⟩
      rcases
          ih hOrdinary.2 hRest hGood.2 hReceiving' hStored'
        with ⟨s'', st'', hRuns, hAll⟩
      refine ⟨s'', st'', hRun.trans hRuns, ?_⟩
      rw [List.append_assoc, List.singleton_append] at hAll
      exact hAll

/- A write that fails in any file fails the upload. -/
theorem alone_run_files_fails
    (h : F.Governs oracle)
    (root : WorkspaceRoot)
    (hBase : PlainBase base)
    (hEmpty : EmptyWorkspace before base.names)
    {files done : List UploadFileSpec}
    {messages : List TaskRequest}
    (hMessages : FilesMessages disk files messages)
    (hOrdinary :
      ∀ file ∈ files, OrdinaryRelative file.relativePath)
    (hApart : (done ++ files).Pairwise FilesApart)
    (hFails :
      ∃ file ∈ files,
        F.FailsWithin (fileLoc base.names file) 0
          (sentOf disk file).length)
    {s : DownloadSession}
    {st : ServerState}
    (hReceiving : s.Receiving base)
    (hStored :
      Stored F disk before base.names done
        (s.settled F st.store)) :
    (Core.Prog.run (alone i oracle) (run root s messages)
      st).1.2.isOk = false := by
  induction hMessages generalizing done s st with
  | nil => simp at hFails
  | @cons file files chunks messages hChunks hMessages ih =>
      simp only [List.forall_mem_cons] at hOrdinary
      rcases filesApart_split hApart with ⟨hFile, hRest⟩
      by_cases hHere :
          F.FailsWithin (fileLoc base.names file) 0
            (sentOf disk file).length
      · rcases
            next_file hBase hEmpty hOrdinary.1 hFile hStored
          with ⟨target, hTarget, hLoc, hCan⟩
        rw [← hLoc] at hHere
        exact
          alone_run_file_fails h root hTarget hChunks
            hReceiving hCan hHere messages
      · have hLater :
            ∃ file ∈ files,
              F.FailsWithin (fileLoc base.names file) 0
                (sentOf disk file).length := by
          rcases hFails with ⟨bad, hMem, hBad⟩
          rcases List.mem_cons.mp hMem with rfl | hMem
          · exact absurd hBad hHere
          · exact ⟨bad, hMem, hBad⟩
        rcases
            alone_run_next (i := i) h root hBase hEmpty
              hChunks hOrdinary.1 hFile hHere hReceiving
              hStored messages with
          ⟨s', st', hRun, hReceiving', hStored'⟩
        rw [hRun]
        exact
          ih hOrdinary.2 hRest hLater hReceiving' hStored'

end DownloadSession

end Drex
