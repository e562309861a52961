import Drex.Upload.RoundTrip

/-
  Uploads under faults: when a file may arrive shorter than
  its declared size without either side reporting it.

  Key definitions include:
    * `LocalFile.Declares`
    * `LocalFile.ReadsWhole`
    * `LocalFile.ReadsNothing`
    * `Reported`
    * `faultyOracle`

  Key theorems include:
    * `LocalFile.delivered_eq_iff`
    * `WriteFaults.kept_eq_iff`
    * `silentTruncation_iff`
-/

------------------------------------------------------------
-- Faults Of A Local File
------------------------------------------------------------

namespace Drex

namespace LocalFile

/-
  The size of these bytes was declared, and reading meets
  their end, an earlier end or a fault.
-/
structure Declares (f : LocalFile) (original : Bytes) :
    Prop where
  size : f.size = some original.length
  data : f.data <+: original

/-
  No read of a block fails before its end, and none fails on
  looking for the end.
-/
def ReadsWhole (f : LocalFile) : Prop :=
  ∀ position, f.fault = some position →
    position ≤ f.data.length →
      position = f.data.length ∧ kChunkSize ∣ position

/- The first read yields nothing. -/
def ReadsNothing (f : LocalFile) : Prop :=
  f.data = [] ∨
    ∃ position, f.fault = some position ∧
      position ≤ f.data.length ∧ position < kChunkSize

theorem delivered_eq_data_iff (f : LocalFile) :
    f.delivered = f.data ↔ f.ReadsWhole := by
  unfold delivered ReadsWhole
  cases hFault : f.fault with
  | none => simp
  | some position =>
      simp only [Option.some.injEq, forall_eq']
      split
      · rename_i hLength
        have hFloor : position / kChunkSize * kChunkSize ≤
            position :=
          Nat.div_mul_le_self _ _
        constructor
        · intro hTake _
          have hLong := congrArg List.length hTake
          rw [List.length_take] at hLong
          have hEq : position = f.data.length := by
            omega
          have hWhole :
              position / kChunkSize * kChunkSize =
                position := by
            omega
          exact ⟨hEq, Dvd.intro_left _ hWhole⟩
        · intro h
          rcases h hLength with ⟨hEq, hDvd⟩
          rw [Nat.div_mul_cancel hDvd, hEq]
          exact List.take_length
      · rename_i hLength
        constructor
        · intro _ hShort
          exact absurd hShort hLength
        · intro _
          rfl

theorem delivered_eq_nil_iff (f : LocalFile) :
    f.delivered = [] ↔ f.ReadsNothing := by
  unfold delivered ReadsNothing
  cases hFault : f.fault with
  | none => simp
  | some position =>
      simp only [Option.some.injEq, exists_eq_left']
      split
      · rename_i hLength
        rw [List.take_eq_nil_iff, Nat.mul_eq_zero,
          Nat.div_eq_zero_iff]
        have hPos := kChunkSize_pos
        constructor
        · rintro (((hZero | hSmall) | hZero) | hNil)
          · omega
          · exact Or.inr ⟨hLength, hSmall⟩
          · omega
          · exact Or.inl hNil
        · rintro (hNil | ⟨_, hSmall⟩)
          · exact Or.inr hNil
          · exact Or.inl (Or.inl (Or.inr hSmall))
      · rename_i hLength
        constructor
        · intro hNil
          exact Or.inl hNil
        · rintro (hNil | ⟨hShort, _⟩)
          · exact hNil
          · exact absurd hShort hLength

/- Everything that was declared is read. -/
theorem delivered_eq_iff
    {f : LocalFile}
    {original : Bytes}
    (h : f.Declares original) :
    f.delivered = original ↔
      f.data = original ∧ f.ReadsWhole := by
  rw [← delivered_eq_data_iff]
  constructor
  · intro hAll
    have hLong := f.delivered_prefix.length_le
    have hShort := h.data.length_le
    rw [hAll] at hLong
    have hData : f.data = original :=
      h.data.eq_of_length (by omega)
    exact ⟨hData, by rw [hAll, hData]⟩
  · rintro ⟨hData, hDelivered⟩
    rw [hDelivered, hData]

end LocalFile

/- Nothing is missing of what was sent and then closed. -/
theorem WriteFaults.kept_eq_iff
    {F : WriteFaults}
    {l : Loc}
    {sent original : Bytes}
    (hPrefix : sent <+: original)
    (hSent : sent ≠ []) :
    F.kept l sent = original ↔
      sent = original ∧ F.lost l = 0 := by
  have hPos := List.length_pos_of_ne_nil hSent
  have hShort := hPrefix.length_le
  unfold WriteFaults.kept
  constructor
  · intro hKept
    have hLong := congrArg List.length hKept
    rw [List.length_take] at hLong
    have hLost : F.lost l = 0 := by
      omega
    rw [hLost] at hKept
    simp only [Nat.sub_zero, List.take_length] at hKept
    exact ⟨hKept, hLost⟩
  · rintro ⟨rfl, hLost⟩
    simp [hLost]

end Drex

------------------------------------------------------------
-- Silent Truncation
------------------------------------------------------------

namespace Drex

section Faults

variable {root : WorkspaceRoot} {store : Store}
variable {oracle : ServerOracle} {disk : LocalDisk}
variable {request : UploadRequest} {F : WriteFaults}
variable {original : UploadFileSpec → Bytes}

/- The client's upload or the server's `Run` is not OK. -/
def Reported
    (status : Status)
    (ending : Ending) : Prop :=
  status.isOk = false ∨ ending.isOk = false

/- Every file in the workspace is a whole local file. -/
def FilesWhole
    (root : WorkspaceRoot)
    (request : UploadRequest)
    (original : UploadFileSpec → Bytes)
    (after : Store) : Prop :=
  ∀ q data,
    workspaceLoc root request.workspaceSubdir <+: q →
      after.HasFile q data →
        ∃ file ∈ request.files,
          q =
              fileLoc
                (workspaceLoc root request.workspaceSubdir)
                file ∧
            data = original file

/- Every local file is whole in the workspace. -/
def FilesArrived
    (root : WorkspaceRoot)
    (request : UploadRequest)
    (original : UploadFileSpec → Bytes)
    (after : Store) : Prop :=
  ∀ file ∈ request.files,
    after.HasFile
      (fileLoc (workspaceLoc root request.workspaceSubdir)
        file)
      (original file)

/- A failure one of the two sides reports. -/
def VisibleFault
    (disk : LocalDisk)
    (root : WorkspaceRoot)
    (request : UploadRequest)
    (F : WriteFaults) : Prop :=
  (∃ file ∈ request.files,
      (disk file.localPath).opens = false) ∨
    ∃ file ∈ request.files,
      F.FailsWithin
        (fileLoc
          (workspaceLoc root request.workspaceSubdir) file)
        0 (sentOf disk file).length

/- The file is read as declared and nothing of it is lost. -/
def Unharmed
    (disk : LocalDisk)
    (root : WorkspaceRoot)
    (request : UploadRequest)
    (F : WriteFaults)
    (original : UploadFileSpec → Bytes)
    (file : UploadFileSpec) : Prop :=
  (disk file.localPath).data = original file ∧
    (disk file.localPath).ReadsWhole ∧
      F.lost
        (fileLoc
          (workspaceLoc root request.workspaceSubdir)
          file) = 0

/- A visible fault is reported. -/
theorem reported_of_visibleFault
    (i : Nat)
    (hOracle : F.Governs oracle)
    (hRequest : GoodRequest root store request)
    (hFault : VisibleFault disk root request F) :
    Reported (uploadStatus disk request)
      (downloadRun i oracle root store
        (uploadMessages disk request)).1.2 := by
  by_cases hMissing :
      ∃ file ∈ request.files,
        (disk file.localPath).opens = false
  · exact
      Or.inl
        (uploadStatus_of_missing disk request hMissing)
  · have hOpens :
        ∀ file ∈ request.files,
          (disk file.localPath).opens = true := by
      intro file hMem
      cases hOpen : (disk file.localPath).opens with
      | true => rfl
      | false => exact absurd ⟨file, hMem, hOpen⟩ hMissing
    have hFails := hFault.resolve_left hMissing
    exact
      Or.inr
        (downloadRun_fails i hOracle hRequest hOpens hFails)

/- Without one, both sides are OK and the rest is stored. -/
theorem stored_of_not_visibleFault
    (i : Nat)
    (hOracle : F.Governs oracle)
    (hRequest : GoodRequest root store request)
    (hFault : ¬ VisibleFault disk root request F) :
    ¬ Reported (uploadStatus disk request)
        (downloadRun i oracle root store
          (uploadMessages disk request)).1.2 ∧
      Stored F disk store
        (workspaceLoc root request.workspaceSubdir)
        request.files
        (downloadRun i oracle root store
          (uploadMessages disk request)).2.store := by
  unfold VisibleFault at hFault
  rw [not_or] at hFault
  have hOpens :
      ∀ file ∈ request.files,
        (disk file.localPath).opens = true := by
    intro file hMem
    cases hOpen : (disk file.localPath).opens with
    | true => rfl
    | false => exact absurd ⟨file, hMem, hOpen⟩ hFault.1
  have hGood :
      ∀ file ∈ request.files,
        ¬ F.FailsWithin
          (fileLoc
            (workspaceLoc root request.workspaceSubdir) file)
          0 (sentOf disk file).length := by
    intro file hMem hFails
    exact hFault.2 ⟨file, hMem, hFails⟩
  rcases downloadRun_stored i hOracle hRequest hOpens hGood
    with ⟨hEnding, hStored⟩
  rcases run_stream disk request hOpens with
    ⟨messages, hMessages, hUpload, hStatus⟩
  refine ⟨?_, hStored⟩
  unfold Reported
  rw [hEnding, hStatus]
  simp [Status.isOk, Status.success, Ending.isOk,
    Ending.success]

/- A stored file is whole if and only if it was unharmed. -/
theorem kept_eq_original_iff
    {file : UploadFileSpec}
    (hDeclares :
      (disk file.localPath).Declares (original file))
    (hSent : sentOf disk file ≠ []) :
    F.kept
          (fileLoc
            (workspaceLoc root request.workspaceSubdir) file)
          (sentOf disk file) =
        original file ↔
      Unharmed disk root request F original file := by
  have hPrefix : sentOf disk file <+: original file :=
    (LocalFile.delivered_prefix _).trans hDeclares.data
  rw [WriteFaults.kept_eq_iff hPrefix hSent]
  unfold sentOf Unharmed
  rw [LocalFile.delivered_eq_iff hDeclares, and_assoc]

/- An unharmed file that is not empty was sent. -/
theorem sentOf_of_unharmed
    {file : UploadFileSpec}
    (hDeclares :
      (disk file.localPath).Declares (original file))
    (hNonempty : original file ≠ [])
    (h : Unharmed disk root request F original file) :
    sentOf disk file ≠ [] := by
  have hAll : sentOf disk file = original file :=
    (LocalFile.delivered_eq_iff hDeclares).mpr
      ⟨h.1, h.2.1⟩
  rw [hAll]
  exact hNonempty

theorem filesWhole_iff
    (hRequest : GoodRequest root store request)
    (hDeclares :
      ∀ file ∈ request.files,
        (disk file.localPath).Declares (original file))
    {after : Store}
    (hStored :
      Stored F disk store
        (workspaceLoc root request.workspaceSubdir)
        request.files after) :
    FilesWhole root request original after ↔
      ∀ file ∈ request.files,
        (disk file.localPath).ReadsNothing ∨
          Unharmed disk root request F original file := by
  constructor
  · intro hWhole file hMem
    by_cases hSent : sentOf disk file = []
    · exact Or.inl ((LocalFile.delivered_eq_nil_iff _).mp hSent)
    · have hPrefix :=
        List.prefix_append
          (workspaceLoc root request.workspaceSubdir)
          (componentsOf file.relativePath)
      have hFile := hStored.files file hMem hSent
      rcases hWhole _ _ hPrefix hFile with
        ⟨other, hOther, hLoc, hData⟩
      have hSame := hRequest.files.eq_of_fileLoc hMem hOther hLoc
      subst hSame
      exact
        Or.inr
          ((kept_eq_original_iff (hDeclares file hMem)
            hSent).mp hData)
  · intro hAll q data hq hFile
    rcases
        (hStored.hasFile_iff hRequest.empty hq data).mp hFile
      with ⟨file, hMem, rfl, hSent, rfl⟩
    refine ⟨file, hMem, rfl, ?_⟩
    rcases hAll file hMem with hNothing | hUnharmed
    · exact
        absurd
          ((LocalFile.delivered_eq_nil_iff _).mpr hNothing)
          hSent
    · exact
        (kept_eq_original_iff (hDeclares file hMem)
          hSent).mpr hUnharmed

theorem filesArrived_iff
    (hRequest : GoodRequest root store request)
    (hDeclares :
      ∀ file ∈ request.files,
        (disk file.localPath).Declares (original file))
    (hNonempty : ∀ file ∈ request.files, original file ≠ [])
    {after : Store}
    (hStored :
      Stored F disk store
        (workspaceLoc root request.workspaceSubdir)
        request.files after) :
    FilesArrived root request original after ↔
      ∀ file ∈ request.files,
        Unharmed disk root request F original file := by
  constructor
  · intro hArrived file hMem
    have hPrefix :=
      List.prefix_append
        (workspaceLoc root request.workspaceSubdir)
        (componentsOf file.relativePath)
    have hFile := hArrived file hMem
    rcases
        (hStored.hasFile_iff hRequest.empty hPrefix _).mp
          hFile with
      ⟨other, hOther, hLoc, hSent, hData⟩
    have hSame := hRequest.files.eq_of_fileLoc hMem hOther hLoc
    subst hSame
    exact
      (kept_eq_original_iff (hDeclares file hMem) hSent).mp
        hData.symm
  · intro hAll file hMem
    have hUnharmed := hAll file hMem
    have hSent :=
      sentOf_of_unharmed (hDeclares file hMem)
        (hNonempty file hMem) hUnharmed
    have hKept :=
      (kept_eq_original_iff (hDeclares file hMem) hSent).mpr
        hUnharmed
    have hFile := hStored.files file hMem hSent
    rw [hKept] at hFile
    exact hFile

/-
  A truncation stays unnoticed exactly when no fault is
  visible and some file was cut short: first for the files
  that are in the workspace, then for all files.
-/
theorem silentTruncation_iff
    (i : Nat)
    (hOracle : F.Governs oracle)
    (hRequest : GoodRequest root store request)
    (hDeclares :
      ∀ file ∈ request.files,
        (disk file.localPath).Declares (original file))
    (hNonempty :
      ∀ file ∈ request.files, original file ≠ []) :
    let result :=
      downloadRun i oracle root store
        (uploadMessages disk request)
    (Reported (uploadStatus disk request) result.1.2 ∨
          FilesWhole root request original result.2.store ↔
        VisibleFault disk root request F ∨
          ∀ file ∈ request.files,
            (disk file.localPath).ReadsNothing ∨
              Unharmed disk root request F original file) ∧
      (Reported (uploadStatus disk request) result.1.2 ∨
          FilesArrived root request original
            result.2.store ↔
        VisibleFault disk root request F ∨
          ∀ file ∈ request.files,
            Unharmed disk root request F original file) := by
  intro result
  by_cases hFault : VisibleFault disk root request F
  · have hReported :=
      reported_of_visibleFault i hOracle hRequest hFault
    exact
      ⟨⟨fun _ => Or.inl hFault, fun _ => Or.inl hReported⟩,
        ⟨fun _ => Or.inl hFault, fun _ => Or.inl hReported⟩⟩
  · rcases
        stored_of_not_visibleFault i hOracle hRequest hFault
      with ⟨hSilent, hStored⟩
    constructor
    · rw [or_iff_right hSilent, or_iff_right hFault]
      exact filesWhole_iff hRequest hDeclares hStored
    · rw [or_iff_right hSilent, or_iff_right hFault]
      exact
        filesArrived_iff hRequest hDeclares hNonempty hStored

end Faults

end Drex

------------------------------------------------------------
-- Small Faults
------------------------------------------------------------

namespace Drex

/- A server whose writes and closes have these faults. -/
def faultyOracle (F : WriteFaults) : ServerOracle :=
  fun op _ =>
    { answer := fun op =>
        match op with
        | .write p offset _ => !F.fails p.loc offset
        | .close p => decide (F.lost p.loc = 0)
        | op => Env.granting.answer op
      amount :=
        match op with
        | .close p => F.lost p.loc
        | _ => 0
      keep := fun _ => false }

/- Every pattern of faults governs some server. -/
theorem faultyOracle_governs (F : WriteFaults) :
    F.Governs (faultyOracle F) := by
  constructor
  · intro s
    rfl
  · intro p s hError
    cases hError
  · intro p s
    rfl
  · intro p s
    rfl
  · intro p offset data s
    rfl
  · intro p s
    exact ⟨rfl, rfl⟩

/- Closing any file loses its last byte. -/
def lossyClose : WriteFaults :=
  { fails := fun _ _ => false
    lost := fun _ => 1 }

/- Writing the second block of any file fails. -/
def failingWrite : WriteFaults :=
  { fails := fun _ offset => offset == kChunkSize
    lost := fun _ => 0 }

theorem smallDisk_declares
    (data : Bytes)
    (file : UploadFileSpec) :
    (smallDisk data file.localPath).Declares
      (smallDisk data file.localPath).data :=
  ⟨rfl, List.prefix_refl _⟩

/- A write that fails in the second file is reported. -/
theorem silentTruncation_failingWrite :
    let result :=
      downloadRun 0 (faultyOracle failingWrite) smallRoot
        smallStore
        (uploadMessages (smallDisk [65]) smallUpload)
    (Reported (uploadStatus (smallDisk [65]) smallUpload)
          result.1.2 ∨
        FilesWhole smallRoot smallUpload
          (fun file => (smallDisk [65] file.localPath).data)
          result.2.store) ∧
      (Reported (uploadStatus (smallDisk [65]) smallUpload)
          result.1.2 ∨
        FilesArrived smallRoot smallUpload
          (fun file => (smallDisk [65] file.localPath).data)
          result.2.store) := by
  have hIff :=
    silentTruncation_iff 0
      (faultyOracle_governs failingWrite) smallUpload_good
      (fun file _ => smallDisk_declares [65] file)
      (fun file _ =>
        smallDisk_data_ne_nil (List.cons_ne_nil _ _)
          file.localPath)
  have hFault :
      VisibleFault (smallDisk [65]) smallRoot smallUpload
        failingWrite := by
    have hSent :
        sentOf (smallDisk [65])
            ⟨"d/g".toList, "d/g".toList⟩ =
          longFile := rfl
    refine
      .inr
        ⟨⟨"d/g".toList, "d/g".toList⟩, by decide,
          kChunkSize, Nat.dvd_refl _, Nat.zero_le _, ?_,
          beq_self_eq_true _⟩
    rw [hSent, longFile_length]
    omega
  exact ⟨hIff.1.mpr (.inl hFault), hIff.2.mpr (.inl hFault)⟩

/-
  Every file loses its last byte when it is closed, and both
  sides report success.
-/
theorem lossyClose_is_silent :
    lossyClose.Governs (faultyOracle lossyClose) ∧
      GoodRequest smallRoot smallStore smallUpload ∧
        ¬ (Reported
              (uploadStatus (smallDisk [65]) smallUpload)
              (downloadRun 0 (faultyOracle lossyClose)
                smallRoot smallStore
                (uploadMessages (smallDisk [65])
                  smallUpload)).1.2 ∨
            FilesWhole smallRoot smallUpload
              (fun file =>
                (smallDisk [65] file.localPath).data)
              (downloadRun 0 (faultyOracle lossyClose)
                smallRoot smallStore
                (uploadMessages (smallDisk [65])
                  smallUpload)).2.store) := by
  have hGoverns := faultyOracle_governs lossyClose
  have hFault :
      ¬ VisibleFault (smallDisk [65]) smallRoot smallUpload
        lossyClose := by
    rintro (⟨file, _, hClosed⟩ |
      ⟨file, _, offset, _, _, _, hFails⟩)
    · cases hClosed
    · cases hFails
  rcases
      stored_of_not_visibleFault 0 hGoverns smallUpload_good
        hFault with
    ⟨hSilent, hStored⟩
  refine ⟨hGoverns, smallUpload_good, ?_⟩
  rintro (hReported | hWhole)
  · exact hSilent hReported
  · have hAll :=
      (filesWhole_iff smallUpload_good
          (fun file _ => smallDisk_declares [65] file)
          hStored).mp
        hWhole
    rcases hAll _ List.mem_cons_self with
      hNothing | ⟨_, _, hLost⟩
    · rcases hNothing with hNil | ⟨position, hFault, _⟩
      · exact
          smallDisk_data_ne_nil (List.cons_ne_nil _ _) _ hNil
      · cases hFault
    · cases hLost

end Drex
