import Drex.Client.Stream
import Mathlib.Data.List.Forall2

/-
  Where a file starts and ends in the stream of its chunks.

  Key definitions include:
    * `LocalFile.Uploadable`
    * `Framed`
    * `FramesFiles`

  Key theorems include:
    * `FileChunks.framed_iff`
    * `run_streamFileProgress`
    * `run_streamWorkspaceFilesProgress`
    * `framesFiles_iff_not_whole_blocks`
-/

------------------------------------------------------------
-- Framed Chunks
------------------------------------------------------------

namespace Drex

/-
  A file that can be opened and read to its end, of the size
  the disk declares, and that is not empty.
-/
structure LocalFile.Uploadable (f : LocalFile) : Prop where
  opens : f.opens = true
  sized : f.size = some f.data.length
  sound : f.fault = none
  nonempty : f.data ≠ []

/-
  Chunks frame a file: they carry its contents in pieces, the
  first flags the start and the size, the last the end.
-/
structure Framed
    (relativePath : Str)
    (data : Bytes)
    (chunks : List TaskFileChunk) : Prop where
  path : ∀ chunk ∈ chunks, chunk.relativePath = relativePath
  nonempty : ∀ chunk ∈ chunks, chunk.data ≠ []
  short : ∀ chunk ∈ chunks, chunk.data.length ≤ kChunkSize
  content : chunks.flatMap TaskFileChunk.data = data
  start : ∀ i chunk, chunks[i]? = some chunk →
    (chunk.fileStart = true ↔ i = 0)
  size : ∀ i chunk, chunks[i]? = some chunk →
    chunk.fileSize = if i = 0 then (data.length : Int) else 0
  finish : ∀ i chunk, chunks[i]? = some chunk →
    (chunk.fileEnd = true ↔ i + 1 = chunks.length)

end Drex

------------------------------------------------------------
-- What Every Chunk Satisfies
------------------------------------------------------------

namespace Drex

namespace FileChunks

variable {relativePath : Str} {firstChunk : Bool}
variable {chunks : List TaskFileChunk} {data : Bytes}

theorem path
    (h : FileChunks relativePath firstChunk chunks data) :
    ∀ chunk ∈ chunks, chunk.relativePath = relativePath := by
  induction h with
  | done firstChunk => simp
  | last firstChunk size hData hLength => simp
  | more firstChunk size hData hLength hRest ih =>
      simpa using ih

theorem nonempty
    (h : FileChunks relativePath firstChunk chunks data) :
    ∀ chunk ∈ chunks, chunk.data ≠ [] := by
  induction h with
  | done firstChunk => simp
  | last firstChunk size hData hLength => simpa using hData
  | more firstChunk size hData hLength hRest ih =>
      simpa using ⟨hData, ih⟩

theorem short
    (h : FileChunks relativePath firstChunk chunks data) :
    ∀ chunk ∈ chunks, chunk.data.length ≤ kChunkSize := by
  induction h with
  | done firstChunk => simp
  | last firstChunk size hData hLength =>
      simpa using hLength.le
  | more firstChunk size hData hLength hRest ih =>
      simpa using ⟨hLength.le, ih⟩

theorem content
    (h : FileChunks relativePath firstChunk chunks data) :
    chunks.flatMap TaskFileChunk.data = data := by
  induction h with
  | done firstChunk => rfl
  | last firstChunk size hData hLength => simp
  | more firstChunk size hData hLength hRest ih =>
      rw [List.flatMap_cons, ih]

/- Only the first chunk may flag the start. -/
theorem start
    (h : FileChunks relativePath firstChunk chunks data) :
    ∀ i chunk, chunks[i]? = some chunk →
      (chunk.fileStart = true ↔
        firstChunk = true ∧ i = 0) := by
  induction h with
  | done firstChunk => simp
  | last firstChunk size hData hLength =>
      intro i chunk hGet
      cases i with
      | zero =>
          rw [← Option.some.inj hGet]
          simp
      | succ i => simp at hGet
  | more firstChunk size hData hLength hRest ih =>
      intro i chunk hGet
      cases i with
      | zero =>
          rw [← Option.some.inj hGet]
          simp
      | succ i =>
          rw [ih i chunk hGet]
          simp

end FileChunks

theorem Announces.size
    {size : Int}
    {firstChunk : Bool}
    {chunks : List TaskFileChunk}
    (h : Announces size firstChunk chunks) :
    ∀ i chunk, chunks[i]? = some chunk →
      chunk.fileSize =
        if firstChunk = true ∧ i = 0 then size else 0 := by
  induction chunks generalizing firstChunk with
  | nil => simp
  | cons head chunks ih =>
      intro i chunk hGet
      cases i with
      | zero =>
          rw [← Option.some.inj hGet, h.1]
          simp
      | succ i =>
          rw [ih h.2 i chunk hGet]
          simp

end Drex

------------------------------------------------------------
-- The End Of A File
------------------------------------------------------------

namespace Drex

namespace FileChunks

variable {relativePath : Str} {firstChunk : Bool}
variable {chunks : List TaskFileChunk} {data : Bytes}

/-
  The end is flagged on the last chunk, unless that is a
  whole block: then the stream has not seen the end of the
  file yet, and the next read gets nothing.
-/
theorem fileEnd_iff
    (h : FileChunks relativePath firstChunk chunks data) :
    ∀ i chunk, chunks[i]? = some chunk →
      (chunk.fileEnd = true ↔
        i + 1 = chunks.length ∧
          ¬kChunkSize ∣ data.length) := by
  induction h with
  | done firstChunk => simp
  | @last firstChunk data size hData hLength =>
      have hShort : ¬kChunkSize ∣ data.length := by
        intro hDvd
        have hZero := Nat.eq_zero_of_dvd_of_lt hDvd hLength
        exact hData (List.eq_nil_of_length_eq_zero hZero)
      intro i chunk hGet
      cases i with
      | zero =>
          rw [← Option.some.inj hGet]
          simpa using hShort
      | succ i => simp at hGet
  | @more firstChunk data rest chunks size hData hLength
      hRest ih =>
      have hDvd :
          kChunkSize ∣ (data ++ rest).length ↔
            kChunkSize ∣ rest.length := by
        rw [List.length_append, hLength,
          Nat.dvd_add_right (Nat.dvd_refl _)]
      intro i chunk hGet
      cases i with
      | zero =>
          rw [← Option.some.inj hGet, hDvd]
          cases hRest with
          | done firstChunk => simp
          | last firstChunk size hData hLength => simp
          | more firstChunk size hData hLength hRest =>
              simp
      | succ i =>
          rw [ih i chunk hGet, hDvd]
          simp

/- The chunks of a file frame it unless it ends on a block. -/
theorem framed_iff
    (h : FileChunks relativePath true chunks data)
    (hSizes : Announces data.length true chunks)
    (hData : data ≠ []) :
    Framed relativePath data chunks ↔
      ¬kChunkSize ∣ data.length := by
  constructor
  · intro hFramed
    have hChunks : chunks ≠ [] := by
      intro hNil
      subst hNil
      exact hData h.content.symm
    have hGet := List.getLast?_eq_some_getLast hChunks
    rw [List.getLast?_eq_getElem?] at hGet
    have hPos := List.length_pos_of_ne_nil hChunks
    have hEnd :=
      (hFramed.finish _ _ hGet).mpr (by omega)
    exact ((h.fileEnd_iff _ _ hGet).mp hEnd).2
  · intro hDvd
    exact
      { path := h.path
        nonempty := h.nonempty
        short := h.short
        content := h.content
        start := by
          simpa using h.start
        size := by
          simpa using hSizes.size
        finish := by
          simpa [hDvd] using h.fileEnd_iff }

end FileChunks

end Drex

------------------------------------------------------------
-- Streaming Readable Files
------------------------------------------------------------

namespace Drex

theorem LocalFile.Uploadable.delivered_eq
    {f : LocalFile}
    (h : f.Uploadable) :
    f.delivered = f.data := by
  unfold LocalFile.delivered
  rw [h.sound]

/- A readable file is sent whole and counted whole. -/
theorem run_streamFileProgress
    (disk : LocalDisk)
    (file : UploadFileSpec)
    (hUploadable : (disk file.localPath).Uploadable) :
    ∃ chunks,
      FileChunks file.relativePath true chunks
          (disk file.localPath).data ∧
        Announces (disk file.localPath).data.length true
            chunks ∧
          ∀ bytesSent sent,
            Core.Prog.run sending
                (streamFileProgress disk file bytesSent)
                sent =
              ((Status.success,
                  bytesSent +
                    (disk file.localPath).data.length),
                sent ++ chunks.map TaskRequest.fileChunk) := by
  have hSound : (disk file.localPath).SoundBefore 0 := by
    intro position hFault hLength
    omega
  have hSize :
      (disk file.localPath).declaredSize =
        (disk file.localPath).data.length := by
    simp [LocalFile.declaredSize, hUploadable.sized]
  rcases
      run_streamChunksProgress (disk file.localPath)
        file.relativePath 0 true (Nat.dvd_zero _) hSound
    with ⟨chunks, hChunks, hSizes, hRun⟩
  rw [List.drop_zero, hUploadable.delivered_eq] at hChunks hRun
  rw [hSize] at hSizes
  refine ⟨chunks, hChunks, hSizes, ?_⟩
  intro bytesSent sent
  unfold streamFileProgress
  simp only [hUploadable.opens, if_true]
  exact hRun bytesSent sent

/-
  A file was streamed as these chunks: the loop over it sends
  them one after the other and counts the file's length.
-/
structure StreamedAs
    (disk : LocalDisk)
    (file : UploadFileSpec)
    (chunks : List TaskFileChunk) : Prop where
  run : ∀ bytesSent sent,
    Core.Prog.run sending
        (streamFileProgress disk file bytesSent) sent =
      ((Status.success,
          bytesSent + (disk file.localPath).data.length),
        sent ++ chunks.map TaskRequest.fileChunk)

/- What is sent fixes the chunks. -/
theorem StreamedAs.unique
    {disk : LocalDisk}
    {file : UploadFileSpec}
    {chunks chunks' : List TaskFileChunk}
    (h : StreamedAs disk file chunks)
    (h' : StreamedAs disk file chunks') :
    chunks = chunks' := by
  have hRun := (h.run 0 []).symm.trans (h'.run 0 [])
  have hMap := (Prod.mk.inj hRun).2
  have hInj : Function.Injective TaskRequest.fileChunk := by
    intro chunk chunk' hEq
    exact TaskRequest.fileChunk.inj hEq
  exact List.map_injective_iff.mpr hInj (by simpa using hMap)

/-
  The upload of these files: its messages are the chunks of
  the files one file after the other, each file's frame it,
  and the count has grown by the length of each.
-/
def FramesFiles
    (disk : LocalDisk)
    (files : List UploadFileSpec) : Prop :=
  ∃ groups : List (List TaskFileChunk),
    List.Forall₂
        (fun file chunks =>
          StreamedAs disk file chunks ∧
            Framed file.relativePath
              (disk file.localPath).data chunks)
        files groups ∧
      ∀ bytesSent sent,
        Core.Prog.run sending
            (streamWorkspaceFilesProgress disk files
              bytesSent)
            sent =
          ((Status.success,
              bytesSent +
                (files.map fun file =>
                  (disk file.localPath).data.length).sum),
            sent ++
              groups.flatten.map TaskRequest.fileChunk)

/- Readable files are streamed one after the other. -/
theorem run_streamWorkspaceFilesProgress
    {disk : LocalDisk}
    {files : List UploadFileSpec}
    {groups : List (List TaskFileChunk)}
    (h : List.Forall₂ (StreamedAs disk) files groups)
    (bytesSent : Nat)
    (sent : List TaskRequest) :
    Core.Prog.run sending
        (streamWorkspaceFilesProgress disk files bytesSent)
        sent =
      ((Status.success,
          bytesSent +
            (files.map fun file =>
              (disk file.localPath).data.length).sum),
        sent ++ groups.flatten.map TaskRequest.fileChunk) := by
  induction h generalizing bytesSent sent with
  | nil => simp [streamWorkspaceFilesProgress]
  | cons hFile hFiles ih =>
      rw [streamWorkspaceFilesProgress, Core.Prog.run_bind,
        hFile.run]
      simp only [Status.isOk, Status.success, decide_true,
        if_true]
      rw [ih]
      simp [Nat.add_assoc, Status.success]

/- A choice for each member is a list of choices. -/
theorem exists_forall₂_iff
    {α β : Type}
    {R : α → β → Prop}
    {as : List α} :
    (∃ bs, List.Forall₂ R as bs) ↔
      ∀ a ∈ as, ∃ b, R a b := by
  induction as with
  | nil => simp
  | cons a as ih =>
      rw [List.forall_mem_cons, ← ih]
      constructor
      · rintro ⟨bs, h⟩
        cases h with
        | cons hHead hTail => exact ⟨⟨_, hHead⟩, _, hTail⟩
      · rintro ⟨⟨b, hHead⟩, bs, hTail⟩
        exact ⟨b :: bs, .cons hHead hTail⟩

/- The upload frames every file if each one's loop does. -/
theorem framesFiles_iff
    (disk : LocalDisk)
    (files : List UploadFileSpec) :
    FramesFiles disk files ↔
      ∀ file ∈ files, ∃ chunks,
        StreamedAs disk file chunks ∧
          Framed file.relativePath
            (disk file.localPath).data chunks := by
  rw [← exists_forall₂_iff]
  constructor
  · rintro ⟨groups, hGroups, hRun⟩
    exact ⟨groups, hGroups⟩
  · rintro ⟨groups, hGroups⟩
    have hStreamed :
        List.Forall₂ (StreamedAs disk) files groups :=
      hGroups.imp fun _ _ h => h.1
    exact
      ⟨groups, hGroups,
        run_streamWorkspaceFilesProgress hStreamed⟩

/- A readable file is framed unless it ends on a block. -/
theorem framed_file_iff
    {disk : LocalDisk}
    {file : UploadFileSpec}
    (hUploadable : (disk file.localPath).Uploadable) :
    (∃ chunks,
        StreamedAs disk file chunks ∧
          Framed file.relativePath
            (disk file.localPath).data chunks) ↔
      ¬kChunkSize ∣ (disk file.localPath).data.length := by
  rcases run_streamFileProgress disk file hUploadable with
    ⟨sentChunks, hChunks, hSizes, hRun⟩
  rw [← hChunks.framed_iff hSizes hUploadable.nonempty]
  constructor
  · rintro ⟨chunks, hStreamed, hFramed⟩
    rw [hStreamed.unique ⟨hRun⟩] at hFramed
    exact hFramed
  · intro hFramed
    exact ⟨sentChunks, ⟨hRun⟩, hFramed⟩

/-
  The upload of readable files frames each of them exactly
  when none ends on a whole block.
-/
theorem framesFiles_iff_not_whole_blocks
    (disk : LocalDisk)
    (files : List UploadFileSpec)
    (hUploadable :
      ∀ file ∈ files, (disk file.localPath).Uploadable) :
    FramesFiles disk files ↔
      ∀ file ∈ files,
        ¬kChunkSize ∣ (disk file.localPath).data.length := by
  rw [framesFiles_iff]
  constructor
  · intro h file hMem
    exact (framed_file_iff (hUploadable file hMem)).mp
      (h file hMem)
  · intro h file hMem
    exact (framed_file_iff (hUploadable file hMem)).mpr
      (h file hMem)

/- A block and one byte more. -/
def longFile : Bytes :=
  List.replicate (kChunkSize + 1) 66

/- `f` holds these bytes, and every other file is long. -/
def smallDisk (data : Bytes) : LocalDisk :=
  fun path =>
    let contents := if path = "f".toList then data else longFile
    { opens := true
      size := some contents.length
      data := contents
      fault := none }

/- Two files, one of them in a directory. -/
def smallFiles : List UploadFileSpec :=
  [⟨"f".toList, "f".toList⟩, ⟨"d/g".toList, "d/g".toList⟩]

theorem longFile_length : longFile.length = kChunkSize + 1 :=
  List.length_replicate

theorem smallDisk_data_ne_nil
    {data : Bytes}
    (hData : data ≠ [])
    (path : Str) :
    (smallDisk data path).data ≠ [] := by
  simp only [smallDisk]
  split
  · exact hData
  · simp [longFile]

theorem smallDisk_uploadable
    {data : Bytes}
    (hData : data ≠ [])
    (path : Str) :
    (smallDisk data path).Uploadable :=
  ⟨rfl, rfl, rfl, smallDisk_data_ne_nil hData path⟩

/- A file of one chunk and one of two chunks are framed. -/
theorem framesFiles_smallFiles :
    FramesFiles (smallDisk [7]) smallFiles := by
  rw [framesFiles_iff_not_whole_blocks _ _
    (fun file _ =>
      smallDisk_uploadable (List.cons_ne_nil _ _)
        file.localPath)]
  intro file _ hWhole
  simp only [smallDisk] at hWhole
  split at hWhole
  · exact absurd hWhole (by decide)
  · rw [longFile_length] at hWhole
    exact absurd hWhole (by decide)

/- The end of a file of exactly one block is not flagged. -/
theorem not_framesFiles_one_block :
    ¬∀ disk files,
      (∀ file ∈ files, (disk file.localPath).Uploadable) →
        FramesFiles disk files := by
  intro hFrames
  have hData : List.replicate kChunkSize (7 : UInt8) ≠ [] := by
    intro hNil
    have hZero :=
      (List.replicate_eq_nil_iff (7 : UInt8)).mp hNil
    exact absurd hZero (by decide)
  have hFrames :=
    hFrames (smallDisk (List.replicate kChunkSize 7))
      smallFiles
      (fun file _ =>
        smallDisk_uploadable hData file.localPath)
  rw [framesFiles_iff] at hFrames
  have hFile := hFrames _ List.mem_cons_self
  rw [framed_file_iff (smallDisk_uploadable hData _)] at hFile
  apply hFile
  simp only [smallDisk, if_true, List.length_replicate]
  exact Nat.dvd_refl _

end Drex
