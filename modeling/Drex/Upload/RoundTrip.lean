import Drex.Client.Framing
import Drex.Upload.Workspace
import Drex.Server.Sessions

/-
  The messages of a whole upload, and the workspace they
  leave when no call fails.

  Key definitions include:
    * `uploadMessages`
    * `uploadStatus`
    * `downloadRun`
    * `workspaceLoc`
    * `WriteFaults.none`

  Key theorems include:
    * `downloadRun_stored`
    * `downloadRun_fails`
    * `Stored.hasFile_iff`
    * `uploadRoundTrip_iff`
-/

------------------------------------------------------------
-- Uploads
------------------------------------------------------------

namespace Drex

/- What `TaskSubmit` is asked to send. -/
structure UploadRequest where
  files : List UploadFileSpec
  workspaceSubdir : Str
  command : Str
  enablePty : Bool
  xschedConfig : Option XSchedConfig

namespace UploadRequest

/- The config `TaskSubmit` sends for the request. -/
def config (request : UploadRequest) : TaskConfig :=
  taskConfigOf request.workspaceSubdir request.command
    (effectiveOutputSubdir request.workspaceSubdir)
    request.enablePty request.xschedConfig

/- `SendTaskConfig`, then `StreamWorkspaceFiles`. -/
def stream
    (disk : LocalDisk)
    (request : UploadRequest) :
    ClientProg Status := do
  let _ ←
    sendTaskConfig request.workspaceSubdir request.command
      (effectiveOutputSubdir request.workspaceSubdir)
      request.enablePty request.xschedConfig
  streamWorkspaceFiles disk request.files

end UploadRequest

/- What a stream that takes every message receives. -/
def uploadMessages
    (disk : LocalDisk)
    (request : UploadRequest) :
    List TaskRequest :=
  (Core.Prog.run sending (request.stream disk) []).2

/- What `StreamWorkspaceFiles` then returns. -/
def uploadStatus
    (disk : LocalDisk)
    (request : UploadRequest) :
    Status :=
  (Core.Prog.run sending (request.stream disk) []).1

/- `Run` on the messages of an upload. -/
def downloadRun
    (i : Nat)
    (oracle : ServerOracle)
    (root : WorkspaceRoot)
    (store : Store)
    (messages : List TaskRequest) :
    (DownloadSession × Ending) × ServerState :=
  Core.Prog.run (alone i oracle)
    (DownloadSession.run root .init messages)
    (ServerState.init store)

/- The directory of a workspace. -/
def workspaceLoc
    (root : WorkspaceRoot)
    (workspaceSubdir : Str) :
    Loc :=
  root.path.names ++ componentsOf workspaceSubdir

theorem run_stream
    (disk : LocalDisk)
    (request : UploadRequest)
    (hOpens :
      ∀ file ∈ request.files,
        (disk file.localPath).opens = true) :
    ∃ messages, FilesMessages disk request.files messages ∧
      uploadMessages disk request =
          .config request.config :: messages ∧
        uploadStatus disk request = Status.success := by
  rcases run_streamWorkspaceFiles disk request.files hOpens
    with ⟨messages, hMessages, hRun⟩
  have hStream :
      Core.Prog.run sending (request.stream disk) [] =
        (Status.success,
          .config request.config :: messages) := by
    unfold UploadRequest.stream sendTaskConfig
    rw [Core.Prog.run_bind, Core.Prog.run_perform]
    exact hRun [.config request.config]
  refine ⟨messages, hMessages, ?_, ?_⟩
  · exact congrArg Prod.snd hStream
  · exact congrArg Prod.fst hStream

theorem uploadStatus_of_missing
    (disk : LocalDisk)
    (request : UploadRequest)
    (hMissing :
      ∃ file ∈ request.files,
        (disk file.localPath).opens = false) :
    (uploadStatus disk request).isOk = false := by
  unfold uploadStatus UploadRequest.stream
  rw [Core.Prog.run_bind]
  exact
    run_streamWorkspaceFiles_of_missing disk request.files
      hMissing _

end Drex

------------------------------------------------------------
-- The Workspace Of An Ordinary Subdirectory
------------------------------------------------------------

namespace Drex

/- Ordinary names under the root are appended as they are. -/
theorem lexicallyNormalized_root
    (root : WorkspaceRoot)
    {names : List Name}
    (hNe : names ≠ [])
    (hNames : ∀ n ∈ names, n.Ordinary) :
    lexicallyNormalized root.path
        ⟨false, names, false, by simp⟩ =
      ⟨true, root.path.names ++ names, false, by simp⟩ :=
  Path.append_relative_normal rfl root.path_ordinary hNames
    hNe

/- The file name `output`. -/
def outputName : Name :=
  ⟨"output".toList, by decide, by decide⟩

theorem effectiveOutputSubdir_joinNames
    (names : List Name) :
    effectiveOutputSubdir (joinNames names) =
      joinNames (names ++ [outputName]) := by
  have hAppend :
      Path.ofString (joinNames names) /
          Path.ofString "output".toList =
        ⟨false, names ++ [outputName], false, by simp⟩ := by
    rw [ofString_joinNames]
    exact Path.append_of_names rfl (by decide)
  unfold effectiveOutputSubdir
  rw [hAppend]
  simp [Path.toString]

/-
  An ordinary subdirectory stays in the root, and its
  workspace is a plain path.
-/
theorem resolved_of_ordinary
    (root : WorkspaceRoot)
    (request : UploadRequest)
    (h : OrdinaryRelative request.workspaceSubdir) :
    staysInRoot root request.config = true ∧
      PlainBase
          (resolvedWorkspacePath root request.config) ∧
        (resolvedWorkspacePath root request.config).names =
          workspaceLoc root request.workspaceSubdir := by
  rcases h with ⟨names, hNe, hNames, hSpelled⟩
  have hOutputNames :
      ∀ n ∈ names ++ [outputName], n.Ordinary := by
    intro n hMem
    rcases List.mem_append.mp hMem with hMem | hMem
    · exact hNames n hMem
    · rw [List.mem_singleton.mp hMem]
      decide
  have hRequested :
      requestedSubdir request.config = joinNames names := by
    change defaultIfEmpty request.workspaceSubdir _ = _
    rw [hSpelled]
    exact if_neg (joinNames_ne_nil hNe)
  have hRequestedOutput :
      requestedOutput request.config =
        joinNames (names ++ [outputName]) := by
    change
      defaultIfEmpty
        (effectiveOutputSubdir request.workspaceSubdir) _ = _
    rw [hSpelled, effectiveOutputSubdir_joinNames]
    exact if_neg (joinNames_ne_nil (by simp))
  have hWorkspace :
      resolvedWorkspacePath root request.config =
        ⟨true, root.path.names ++ names, false, by simp⟩ := by
    unfold resolvedWorkspacePath
    rw [hRequested, ofString_joinNames]
    exact lexicallyNormalized_root root hNe hNames
  have hOutput :
      resolvedOutputPath root request.config =
        ⟨true, root.path.names ++ (names ++ [outputName]),
          false, by simp⟩ := by
    unfold resolvedOutputPath
    rw [hRequestedOutput, ofString_joinNames]
    exact
      lexicallyNormalized_root root (by simp) hOutputNames
  have hStays :
      ∀ tail,
        isSubPath root.path
          ⟨true, root.path.names ++ tail, false,
            by simp⟩ = true := by
    intro tail
    rw [isSubPath_root_iff]
    exact ⟨rfl, List.prefix_append _ _⟩
  refine ⟨?_, ?_, ?_⟩
  · unfold staysInRoot
    rw [hWorkspace, hOutput, hStays, hStays]
    rfl
  · rw [hWorkspace]
    constructor
    · rfl
    · intro n hMem
      rcases List.mem_append.mp hMem with hMem | hMem
      · exact root.path_ordinary n hMem
      · exact hNames n hMem
    · rfl
  · rw [hWorkspace]
    unfold workspaceLoc
    rw [hSpelled, componentsOf_joinNames]

end Drex

------------------------------------------------------------
-- Running An Upload
------------------------------------------------------------

namespace Drex

variable {F : WriteFaults} {oracle : ServerOracle}
variable {root : WorkspaceRoot} {store : Store}
variable {disk : LocalDisk} {request : UploadRequest}

/- What an upload is made of and where it goes. -/
structure GoodRequest
    (root : WorkspaceRoot)
    (store : Store)
    (request : UploadRequest) : Prop where
  files : UploadList request.files
  subdir : OrdinaryRelative request.workspaceSubdir
  empty :
    EmptyWorkspace store
      (workspaceLoc root request.workspaceSubdir)

/- The config is accepted and the files are to come. -/
theorem downloadRun_start
    (i : Nat)
    (h : F.Governs oracle)
    (hRequest : GoodRequest root store request)
    (hOpens :
      ∀ file ∈ request.files,
        (disk file.localPath).opens = true) :
    ∃ messages base s st,
      FilesMessages disk request.files messages ∧
        PlainBase base ∧
          base.names =
              workspaceLoc root request.workspaceSubdir ∧
            downloadRun i oracle root store
                (uploadMessages disk request) =
              Core.Prog.run (alone i oracle)
                (DownloadSession.run root s messages) st ∧
              s.Receiving base ∧
                Stored F disk store base.names []
                  (s.settled F st.store) := by
  rcases run_stream disk request hOpens with
    ⟨messages, hMessages, hUpload, hStatus⟩
  rcases resolved_of_ordinary root request hRequest.subdir
    with ⟨hStays, hBase, hNames⟩
  rcases
      DownloadSession.alone_run_config (i := i) h hStays store
        messages with
    ⟨s, st, hConfig, hReceiving, hNone, hStore⟩
  refine
    ⟨messages, _, s, st, hMessages, hBase, hNames, ?_,
      hReceiving, ?_⟩
  · unfold downloadRun
    rw [hUpload]
    exact hConfig
  · unfold DownloadSession.settled
    rw [hNone, hStore]
    exact Stored.start F disk store _

/- Without failing writes the upload is stored. -/
theorem downloadRun_stored
    (i : Nat)
    (h : F.Governs oracle)
    (hRequest : GoodRequest root store request)
    (hOpens :
      ∀ file ∈ request.files,
        (disk file.localPath).opens = true)
    (hGood :
      ∀ file ∈ request.files,
        ¬ F.FailsWithin
          (fileLoc
            (workspaceLoc root request.workspaceSubdir) file)
          0 (sentOf disk file).length) :
    (downloadRun i oracle root store
          (uploadMessages disk request)).1.2 =
        Ending.success ∧
      Stored F disk store
        (workspaceLoc root request.workspaceSubdir)
        request.files
        (downloadRun i oracle root store
          (uploadMessages disk request)).2.store := by
  rcases downloadRun_start i h hRequest hOpens with
    ⟨messages, base, s, st, hMessages, hBase, hNames, hStart,
      hReceiving, hStored⟩
  have hApart :
      ([] ++ request.files).Pairwise FilesApart :=
    hRequest.files.apart
  have hEmpty := hRequest.empty
  rw [← hNames] at hGood hEmpty ⊢
  rcases
      DownloadSession.alone_run_files (i := i) h root hBase
        hEmpty hMessages hRequest.files.ordinary hApart hGood
        hReceiving hStored with
    ⟨s', st', hRun, hAll⟩
  rw [hStart, hRun]
  exact ⟨rfl, hAll⟩

/- A failing write of any file fails the upload. -/
theorem downloadRun_fails
    (i : Nat)
    (h : F.Governs oracle)
    (hRequest : GoodRequest root store request)
    (hOpens :
      ∀ file ∈ request.files,
        (disk file.localPath).opens = true)
    (hFails :
      ∃ file ∈ request.files,
        F.FailsWithin
          (fileLoc
            (workspaceLoc root request.workspaceSubdir) file)
          0 (sentOf disk file).length) :
    (downloadRun i oracle root store
      (uploadMessages disk request)).1.2.isOk = false := by
  rcases downloadRun_start i h hRequest hOpens with
    ⟨messages, base, s, st, hMessages, hBase, hNames, hStart,
      hReceiving, hStored⟩
  have hApart :
      ([] ++ request.files).Pairwise FilesApart :=
    hRequest.files.apart
  have hEmpty := hRequest.empty
  rw [← hNames] at hFails hEmpty
  rw [hStart]
  exact
    DownloadSession.alone_run_files_fails h root hBase hEmpty
      hMessages hRequest.files.ordinary hApart hFails
      hReceiving hStored

/- The files of a workspace that held nothing before. -/
theorem Stored.hasFile_iff
    {workspace : Loc}
    {files : List UploadFileSpec}
    {after : Store}
    (h : Stored F disk store workspace files after)
    (hEmpty : EmptyWorkspace store workspace)
    {q : Loc}
    (hq : workspace <+: q)
    (data : Bytes) :
    after.HasFile q data ↔
      ∃ file ∈ files, q = fileLoc workspace file ∧
        sentOf disk file ≠ [] ∧
          data = F.kept q (sentOf disk file) := by
  have hBefore : ¬ store.HasFile q data := by
    intro hFile
    by_cases hEq : q = workspace
    · subst hEq
      exact hEmpty.passable q (List.prefix_refl q) data hFile
    · unfold Store.HasFile at hFile
      rw [hEmpty.empty q hq hEq] at hFile
      cases hFile
  constructor
  · intro hFile
    rcases h.onlyFiles q data hFile with
      hOld | ⟨file, hMem, rfl, hSent⟩
    · exact absurd hOld hBefore
    · have hContent := h.files file hMem hSent
      unfold Store.HasFile at hFile hContent
      rw [hContent] at hFile
      cases hFile
      exact ⟨file, hMem, rfl, hSent, rfl⟩
  · rintro ⟨file, hMem, rfl, hSent, rfl⟩
    exact h.files file hMem hSent

end Drex

------------------------------------------------------------
-- The Round Trip
------------------------------------------------------------

namespace Drex

/- No write fails and no close loses anything. -/
def WriteFaults.none : WriteFaults :=
  { fails := fun _ _ => false
    lost := fun _ => 0 }

theorem kept_none (l : Loc) (content : Bytes) :
    WriteFaults.none.kept l content = content := by
  simp [WriteFaults.kept, WriteFaults.none]

/- The client can read the whole file. -/
structure LocalFile.Readable (f : LocalFile) : Prop where
  opens : f.opens = true
  fault : f.fault = none

/-
  `Run` returned OK and the workspace holds exactly the
  files of the request with their local contents.
-/
def RoundTrips
    (disk : LocalDisk)
    (root : WorkspaceRoot)
    (request : UploadRequest)
    (result : (DownloadSession × Ending) × ServerState) :
    Prop :=
  result.1.2 = Ending.success ∧
    ∀ q data,
      workspaceLoc root request.workspaceSubdir <+: q →
        (result.2.store.HasFile q data ↔
          ∃ file ∈ request.files,
            q =
              fileLoc
                (workspaceLoc root request.workspaceSubdir)
                file ∧
              data = (disk file.localPath).data)

section Uploads

variable {root : WorkspaceRoot} {store : Store}
variable {oracle : ServerOracle} {disk : LocalDisk}
variable {request : UploadRequest}

theorem sentOf_of_readable
    {file : UploadFileSpec}
    (h : (disk file.localPath).Readable) :
    sentOf disk file = (disk file.localPath).data := by
  unfold sentOf LocalFile.delivered
  rw [h.fault]

/- Without faults the non-empty files are stored. -/
theorem hasFile_downloadRun_iff
    (i : Nat)
    (hOracle : WriteFaults.none.Governs oracle)
    (hRequest : GoodRequest root store request)
    (hDisk :
      ∀ file ∈ request.files,
        (disk file.localPath).Readable) :
    (downloadRun i oracle root store
          (uploadMessages disk request)).1.2 =
        Ending.success ∧
      ∀ q data,
        workspaceLoc root request.workspaceSubdir <+: q →
          ((downloadRun i oracle root store
                (uploadMessages disk
                  request)).2.store.HasFile q data ↔
            ∃ file ∈ request.files,
              q =
                fileLoc
                  (workspaceLoc root request.workspaceSubdir)
                  file ∧
                data ≠ [] ∧
                  data = (disk file.localPath).data) := by
  have hOpens :
      ∀ file ∈ request.files,
        (disk file.localPath).opens = true := by
    intro file hMem
    exact (hDisk file hMem).opens
  have hGood :
      ∀ file ∈ request.files,
        ¬ WriteFaults.none.FailsWithin
          (fileLoc
            (workspaceLoc root request.workspaceSubdir) file)
          0 (sentOf disk file).length := by
    rintro file hMem ⟨offset, _, _, _, hFails⟩
    cases hFails
  rcases downloadRun_stored i hOracle hRequest hOpens hGood
    with ⟨hEnding, hStored⟩
  refine ⟨hEnding, ?_⟩
  intro q data hq
  rw [hStored.hasFile_iff hRequest.empty hq data]
  constructor
  · rintro ⟨file, hMem, hLoc, hSent, hData⟩
    rw [kept_none] at hData
    rw [← hData] at hSent
    rw [sentOf_of_readable (hDisk file hMem)] at hData
    exact ⟨file, hMem, hLoc, hSent, hData⟩
  · rintro ⟨file, hMem, hLoc, hNonempty, hData⟩
    have hSent := sentOf_of_readable (hDisk file hMem)
    rw [← hData] at hSent
    refine ⟨file, hMem, hLoc, ?_, ?_⟩
    · rw [hSent]
      exact hNonempty
    · rw [kept_none, hSent]

/- A file that came back is not empty. -/
theorem data_ne_nil_of_roundTrips
    (i : Nat)
    (hOracle : WriteFaults.none.Governs oracle)
    (hRequest : GoodRequest root store request)
    (hDisk :
      ∀ file ∈ request.files,
        (disk file.localPath).Readable)
    (hTrips :
      RoundTrips disk root request
        (downloadRun i oracle root store
          (uploadMessages disk request)))
    {file : UploadFileSpec}
    (hMem : file ∈ request.files) :
    (disk file.localPath).data ≠ [] := by
  have hPrefix :=
    List.prefix_append
      (workspaceLoc root request.workspaceSubdir)
      (componentsOf file.relativePath)
  have hHas :=
    (hTrips.2 _ _ hPrefix).mpr ⟨file, hMem, rfl, rfl⟩
  have hFiles :=
    (hasFile_downloadRun_iff i hOracle hRequest hDisk).2
  rcases (hFiles _ _ hPrefix).mp hHas with
    ⟨other, hOther, hLoc, hNonempty, hData⟩
  exact hNonempty

/-
  An upload without failing calls comes back as it was if
  and only if none of its files is empty.
-/
theorem uploadRoundTrip_iff
    (i : Nat)
    (hOracle : WriteFaults.none.Governs oracle)
    (hRequest : GoodRequest root store request)
    (hDisk :
      ∀ file ∈ request.files,
        (disk file.localPath).Readable) :
    RoundTrips disk root request
        (downloadRun i oracle root store
          (uploadMessages disk request)) ↔
      ∀ file ∈ request.files,
        (disk file.localPath).data ≠ [] := by
  constructor
  · intro hTrips file hMem
    exact
      data_ne_nil_of_roundTrips i hOracle hRequest hDisk
        hTrips hMem
  · intro hNonempty
    rcases
        hasFile_downloadRun_iff i hOracle hRequest hDisk with
      ⟨hEnding, hFiles⟩
    refine ⟨hEnding, ?_⟩
    intro q data hq
    rw [hFiles q data hq]
    constructor
    · rintro ⟨file, hMem, hLoc, _, hData⟩
      exact ⟨file, hMem, hLoc, hData⟩
    · rintro ⟨file, hMem, hLoc, hData⟩
      refine ⟨file, hMem, hLoc, ?_, hData⟩
      rw [hData]
      exact hNonempty file hMem

end Uploads

end Drex

------------------------------------------------------------
-- A Small Upload
------------------------------------------------------------

namespace Drex

/- Two files for the workspace `a`. -/
def smallUpload : UploadRequest :=
  { files := smallFiles
    workspaceSubdir := "a".toList
    command := "true".toList
    enablePty := false
    xschedConfig := none }

/- Every call of the server succeeds. -/
def grantingOracle : ServerOracle :=
  fun _ _ => Env.granting

theorem grantingOracle_governs :
    WriteFaults.none.Governs grantingOracle := by
  constructor
  · intro s
    rfl
  · intro p s hError
    cases hError
  · intro p s
    rfl
  · intro p s
    rfl
  · intro p offset data s
    rfl
  · intro p s
    exact ⟨rfl, rfl⟩

theorem smallDisk_readable
    (data : Bytes)
    (file : UploadFileSpec) :
    (smallDisk data file.localPath).Readable :=
  ⟨rfl, rfl⟩

/- The paths of the two files. -/
theorem smallFiles_uploadList : UploadList smallFiles := by
  constructor
  · exact List.cons_ne_nil _ _
  · intro file hMem
    simp only [smallFiles, List.mem_cons, List.not_mem_nil,
      or_false] at hMem
    rcases hMem with rfl | rfl
    · exact
        ⟨[⟨"f".toList, by decide, by decide⟩], by decide,
          by decide, rfl⟩
    · exact
        ⟨[⟨"d".toList, by decide, by decide⟩,
            ⟨"g".toList, by decide, by decide⟩],
          by decide, by decide, rfl⟩
  · decide
  · decide

theorem smallUpload_good :
    GoodRequest smallRoot smallStore smallUpload := by
  have hSubdir : OrdinaryRelative "a".toList :=
    ⟨[⟨"a".toList, by decide, by decide⟩], by decide,
      by decide, rfl⟩
  have hLoc :
      workspaceLoc smallRoot smallUpload.workspaceSubdir =
        [workspaceName, ⟨"a".toList, by decide, by decide⟩] := by
    decide
  refine ⟨smallFiles_uploadList, hSubdir, ?_⟩
  rw [hLoc]
  constructor
  · intro q hPrefix data hNode
    simp only [smallStore] at hNode
    split at hNode <;> cases hNode
  · intro q hPrefix hNe
    simp only [smallStore]
    rw [if_neg]
    rintro (rfl | rfl)
    · have hLength := hPrefix.length_le
      simp at hLength
    · have hLength := hPrefix.length_le
      simp at hLength

/- A short file and one of two chunks make the round trip. -/
theorem uploadRoundTrip_small :
    RoundTrips (smallDisk [65]) smallRoot smallUpload
      (downloadRun 0 grantingOracle smallRoot smallStore
        (uploadMessages (smallDisk [65]) smallUpload)) := by
  rw [uploadRoundTrip_iff 0 grantingOracle_governs
    smallUpload_good
    (fun file _ => smallDisk_readable [65] file)]
  intro file _
  exact
    smallDisk_data_ne_nil (List.cons_ne_nil _ _)
      file.localPath

/- An empty file does not. -/
theorem emptyFile_not_roundTrips :
    WriteFaults.none.Governs grantingOracle ∧
      GoodRequest smallRoot smallStore smallUpload ∧
        (∀ file ∈ smallUpload.files,
          (smallDisk [] file.localPath).Readable) ∧
          ¬ RoundTrips (smallDisk []) smallRoot smallUpload
            (downloadRun 0 grantingOracle smallRoot
              smallStore
              (uploadMessages (smallDisk [])
                smallUpload)) := by
  have hDisk :
      ∀ file ∈ smallUpload.files,
        (smallDisk [] file.localPath).Readable := by
    intro file hMem
    exact smallDisk_readable [] file
  refine
    ⟨grantingOracle_governs, smallUpload_good, hDisk, ?_⟩
  intro hTrips
  exact
    data_ne_nil_of_roundTrips 0 grantingOracle_governs
      smallUpload_good hDisk hTrips List.mem_cons_self rfl

end Drex
