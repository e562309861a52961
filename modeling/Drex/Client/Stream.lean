import Drex.Client.Upload
import Mathlib.Data.Nat.ModEq

/-
  The messages a whole upload consists of.

  Key definitions include:
    * `LocalFile.delivered`
    * `FileChunks`
    * `Announces`
    * `sending`
    * `FilesMessages`

  Key theorems include:
    * `LocalFile.delivered_prefix`
    * `run_streamChunksProgress`
    * `run_streamChunks`
    * `run_streamWorkspaceFiles`
-/

------------------------------------------------------------
-- What Is Read Of A File
------------------------------------------------------------

namespace Drex

namespace LocalFile

/-
  The bytes the client gets out of a file: the whole blocks
  before the fault, or everything.
-/
def delivered (f : LocalFile) : Bytes :=
  match f.fault with
  | none => f.data
  | some position =>
      if position ≤ f.data.length then
        f.data.take (position / kChunkSize * kChunkSize)
      else
        f.data

theorem delivered_prefix (f : LocalFile) :
    f.delivered <+: f.data := by
  unfold delivered
  cases f.fault with
  | none => exact List.prefix_refl _
  | some position =>
      simp only []
      split
      · exact List.take_prefix _ _
      · exact List.prefix_refl _

/- No read before this offset fails. -/
def SoundBefore (f : LocalFile) (offset : Nat) : Prop :=
  ∀ position, f.fault = some position →
    position ≤ f.data.length → offset ≤ position

theorem failsIn_iff
    (f : LocalFile)
    (offset count : Nat) :
    f.failsIn offset count = true ↔
      ∃ position, f.fault = some position ∧
        offset ≤ position ∧ position < offset + count ∧
          position ≤ f.data.length := by
  unfold failsIn
  cases f.fault with
  | none => simp
  | some position => simp

/- A block whose read fails is not delivered. -/
theorem delivered_of_failsIn
    {f : LocalFile}
    {offset : Nat}
    (hBlock : kChunkSize ∣ offset)
    (hFails : f.failsIn offset kChunkSize = true) :
    f.delivered.drop offset = [] := by
  rcases (f.failsIn_iff offset kChunkSize).mp hFails with
    ⟨position, hFault, hLow, hHigh, hLength⟩
  rcases hBlock with ⟨index, rfl⟩
  have hPos : 0 < kChunkSize := by
    decide
  have hIndex : position / kChunkSize = index := by
    apply Nat.div_eq_of_lt_le
    · rw [Nat.mul_comm]
      exact hLow
    · rw [Nat.succ_mul, Nat.mul_comm]
      exact hHigh
  apply List.drop_eq_nil_of_le
  unfold delivered
  rw [hFault]
  simp only [hLength, if_true, hIndex, List.length_take]
  rw [Nat.mul_comm]
  exact Nat.min_le_left _ _

/- What a sound block holds is delivered. -/
theorem delivered_take
    {f : LocalFile}
    {limit : Nat}
    (hBlock : kChunkSize ∣ limit)
    (hSound : f.SoundBefore limit) :
    f.delivered.take limit = f.data.take limit := by
  unfold delivered
  cases hFault : f.fault with
  | none => rfl
  | some position =>
      simp only []
      split
      · rename_i hLength
        have hLow := hSound position hFault hLength
        rw [List.take_take]
        congr 1
        rcases hBlock with ⟨index, rfl⟩
        apply Nat.min_eq_left
        rw [Nat.mul_comm kChunkSize index]
        apply Nat.mul_le_mul_right
        rw [Nat.le_div_iff_mul_le (by decide), Nat.mul_comm]
        exact hLow
      · rfl

/- Reading goes on soundly after a block that was read. -/
theorem SoundBefore.next
    {f : LocalFile}
    {offset : Nat}
    (hSound : f.SoundBefore offset)
    (hRead : f.failsIn offset kChunkSize = false) :
    f.SoundBefore (offset + kChunkSize) := by
  intro position hFault hLength
  have hLow := hSound position hFault hLength
  by_contra hHigh
  have hFails : f.failsIn offset kChunkSize = true :=
    (f.failsIn_iff offset kChunkSize).mpr
      ⟨position, hFault, hLow, by omega, hLength⟩
  rw [hFails] at hRead
  cases hRead

/- A sound block of the file is one of what is delivered. -/
theorem take_drop_delivered
    {f : LocalFile}
    {offset : Nat}
    (hBlock : kChunkSize ∣ offset)
    (hSound : f.SoundBefore (offset + kChunkSize)) :
    (f.data.drop offset).take kChunkSize =
      (f.delivered.drop offset).take kChunkSize := by
  have hLimit : kChunkSize ∣ offset + kChunkSize :=
    Nat.dvd_add_self_right.mpr hBlock
  have hSize : offset + kChunkSize - offset = kChunkSize := by
    omega
  calc
    (f.data.drop offset).take kChunkSize =
        (f.data.take (offset + kChunkSize)).drop offset := by
      rw [List.drop_take, hSize]
    _ = (f.delivered.take (offset + kChunkSize)).drop
          offset := by
      rw [delivered_take hLimit hSound]
    _ = (f.delivered.drop offset).take kChunkSize := by
      rw [List.drop_take, hSize]

/-
  A read at a block: nothing is left, the rest is short, or
  a whole block was read.
-/
theorem read_cases
    {f : LocalFile}
    {offset : Nat}
    (hBlock : kChunkSize ∣ offset)
    (hSound : f.SoundBefore offset) :
    ((f.read offset kChunkSize).bytes = [] ∧
        f.delivered.drop offset = []) ∨
      (∃ data, data ≠ [] ∧ data.length < kChunkSize ∧
        f.delivered.drop offset = data ∧
          f.read offset kChunkSize = ⟨data, true, false⟩) ∨
      (∃ data, data ≠ [] ∧ data.length = kChunkSize ∧
        f.delivered.drop offset =
            data ++ f.delivered.drop (offset + kChunkSize) ∧
          f.SoundBefore (offset + kChunkSize) ∧
            f.read offset kChunkSize =
              ⟨data, false, true⟩) := by
  have hSize : 0 < kChunkSize := by
    decide
  cases hFails : f.failsIn offset kChunkSize with
  | true =>
      have hRead : (f.read offset kChunkSize).bytes = [] := by
        simp [read, hFails]
      exact
        Or.inl ⟨hRead, delivered_of_failsIn hBlock hFails⟩
  | false =>
      have hNext := hSound.next hFails
      have hTake := take_drop_delivered hBlock hNext
      generalize hRest : f.delivered.drop offset = rest
        at hTake
      have hLonger :
          f.delivered.drop (offset + kChunkSize) =
            rest.drop kChunkSize := by
        rw [← hRest, List.drop_drop]
      by_cases hShort : rest.length < kChunkSize
      · have hWhole : rest.take kChunkSize = rest :=
          List.take_of_length_le (by omega)
        have hRead :
            f.read offset kChunkSize =
              ⟨rest, true, false⟩ := by
          simp [read, hFails, hTake, hWhole, hShort]
        by_cases hNil : rest = []
        · refine Or.inl ⟨?_, hNil⟩
          rw [hRead, hNil]
        · exact
            Or.inr
              (Or.inl ⟨rest, hNil, hShort, rfl, hRead⟩)
      · have hLength :
            (rest.take kChunkSize).length = kChunkSize := by
          rw [List.length_take]
          omega
        have hRead :
            f.read offset kChunkSize =
              ⟨rest.take kChunkSize, false, true⟩ := by
          simp only [read, hFails, hTake, hLength]
          simp
        have hNonempty : rest.take kChunkSize ≠ [] := by
          intro hNil
          rw [hNil] at hLength
          simp at hLength
          omega
        refine
          Or.inr (Or.inr ⟨_, hNonempty, hLength, ?_, hNext,
            hRead⟩)
        rw [hLonger, List.take_append_drop]

end LocalFile

end Drex

------------------------------------------------------------
-- The Chunks Of A File
------------------------------------------------------------

namespace Drex

/-
  Chunks that carry these bytes of a file: none is empty,
  the start is flagged on the first and the end at most on
  the last, and all before it are whole blocks.
-/
inductive FileChunks (relativePath : Str) :
    Bool → List TaskFileChunk → Bytes → Prop
| done (firstChunk : Bool) :
    FileChunks relativePath firstChunk [] []
| last
    (firstChunk : Bool)
    {data : Bytes}
    (size : Int)
    (hData : data ≠ [])
    (hLength : data.length < kChunkSize) :
    FileChunks relativePath firstChunk
      [⟨data, relativePath, firstChunk, true, size⟩] data
| more
    (firstChunk : Bool)
    {data rest : Bytes}
    {chunks : List TaskFileChunk}
    (size : Int)
    (hData : data ≠ [])
    (hLength : data.length = kChunkSize)
    (hRest : FileChunks relativePath false chunks rest) :
    FileChunks relativePath firstChunk
      (⟨data, relativePath, firstChunk, false, size⟩ ::
        chunks)
      (data ++ rest)

/- A stream that takes every message and remembers it. -/
def sending :
    Core.Prog.Handler ClientOp ClientResp
      (List TaskRequest)
| .write request, sent => (true, sent ++ [request])
| .writesDone, sent => ((), sent)
| .drainServerResponses, sent =>
    (⟨.kSuccess, [], [], 0⟩, sent)
| .finish, sent => (Status.success, sent)

/- The size is announced on the first chunk only. -/
def Announces (size : Int) :
    Bool → List TaskFileChunk → Prop
| _, [] => True
| firstChunk, chunk :: chunks =>
    chunk.fileSize = (if firstChunk then size else 0) ∧
      Announces size false chunks

/- The size `StreamWorkspaceFiles` announces. -/
def LocalFile.declaredSize (f : LocalFile) : Nat :=
  f.size.getD 0

theorem chunkOf_fileSize
    (f : LocalFile)
    (relativePath : Str)
    (firstChunk : Bool)
    (state : ReadState) :
    (chunkOf f relativePath firstChunk state).fileSize =
      (if firstChunk then (f.declaredSize : Int) else 0) := by
  unfold chunkOf LocalFile.declaredSize
  cases f.size with
  | none => simp
  | some size => simp

/-
  The loop over a file sends its chunks, counts their bytes
  and succeeds.
-/
theorem run_streamChunksProgress
    (f : LocalFile)
    (relativePath : Str)
    (offset : Nat)
    (firstChunk : Bool)
    (hBlock : kChunkSize ∣ offset)
    (hSound : f.SoundBefore offset) :
    ∃ chunks,
      FileChunks relativePath firstChunk chunks
          (f.delivered.drop offset) ∧
        Announces f.declaredSize firstChunk chunks ∧
          ∀ bytesSent sent,
            Core.Prog.run sending
                (streamChunksProgress f relativePath offset
                  firstChunk bytesSent)
                sent =
              ((Status.success,
                  bytesSent +
                    (f.delivered.drop offset).length),
                sent ++ chunks.map TaskRequest.fileChunk) := by
  induction hMeasure : f.data.length - offset
    using Nat.strong_induction_on
    generalizing offset firstChunk with
  | _ measure ih =>
      rcases LocalFile.read_cases hBlock hSound with
        ⟨hRead, hDone⟩ |
        ⟨data, hData, hLength, hLast, hRead⟩ |
        ⟨data, hData, hLength, hMore, hNext, hRead⟩
      · rw [hDone]
        refine ⟨[], .done firstChunk, trivial, ?_⟩
        intro bytesSent sent
        rw [streamChunksProgress_done _ _ _ hRead]
        simp
      · rw [hLast]
        refine
          ⟨[chunkOf f relativePath firstChunk
              ⟨data, true, false⟩],
            .last firstChunk _ hData hLength,
            ⟨chunkOf_fileSize _ _ _ _, trivial⟩, ?_⟩
        intro bytesSent sent
        rw [streamChunksProgress_send _ _ _ hRead hData]
        rfl
      · rw [hMore]
        have hProgress : offset < f.data.length := by
          apply (LocalFile.read_progress _).1
          · exact kChunkSize
          · rw [hRead]
            exact hData
        have hSize : 0 < kChunkSize := by
          decide
        rcases
            ih (f.data.length - (offset + kChunkSize))
              (by omega) (offset + kChunkSize) false
              (Nat.dvd_add_self_right.mpr hBlock) hNext rfl
          with ⟨chunks, hChunks, hSizes, hRun⟩
        refine
          ⟨chunkOf f relativePath firstChunk
              ⟨data, false, true⟩ :: chunks,
            .more firstChunk _ hData hLength hChunks,
            ⟨chunkOf_fileSize _ _ _ _, hSizes⟩, ?_⟩
        intro bytesSent sent
        rw [streamChunksProgress_send _ _ _ hRead hData,
          Core.Prog.run_bind, Core.Prog.run_perform]
        simp only [sending, Bool.true_eq_false, if_false,
          if_true, hLength]
        rw [hRun, List.map_cons, List.append_assoc,
          List.length_append, hLength, Nat.add_assoc]
        rfl

/- The loop over a file sends its chunks and succeeds. -/
theorem run_streamChunks
    (f : LocalFile)
    (relativePath : Str)
    (offset : Nat)
    (firstChunk : Bool)
    (hBlock : kChunkSize ∣ offset)
    (hSound : f.SoundBefore offset) :
    ∃ chunks,
      FileChunks relativePath firstChunk chunks
          (f.delivered.drop offset) ∧
        ∀ sent,
          Core.Prog.run sending
              (streamChunks f relativePath offset firstChunk)
              sent =
            (Status.success,
              sent ++ chunks.map TaskRequest.fileChunk) := by
  rcases
      run_streamChunksProgress f relativePath offset
        firstChunk hBlock hSound
    with ⟨chunks, hChunks, hSizes, hRun⟩
  refine ⟨chunks, hChunks, ?_⟩
  intro sent
  rw [← streamChunks_eq f relativePath offset firstChunk 0,
    map_eq_pure_bind, Core.Prog.run_bind, hRun]
  rfl

/- The messages of a list of files, in order. -/
inductive FilesMessages (disk : LocalDisk) :
    List UploadFileSpec → List TaskRequest → Prop
| nil : FilesMessages disk [] []
| cons
    {file : UploadFileSpec}
    {files : List UploadFileSpec}
    {chunks : List TaskFileChunk}
    {messages : List TaskRequest}
    (hChunks :
      FileChunks file.relativePath true chunks
        (disk file.localPath).delivered)
    (hMessages : FilesMessages disk files messages) :
    FilesMessages disk (file :: files)
      (chunks.map TaskRequest.fileChunk ++ messages)

/- Files that can be opened are all streamed. -/
theorem run_streamWorkspaceFiles
    (disk : LocalDisk)
    (files : List UploadFileSpec)
    (hOpens :
      ∀ file ∈ files, (disk file.localPath).opens = true) :
    ∃ messages,
      FilesMessages disk files messages ∧
        ∀ sent,
          Core.Prog.run sending
              (streamWorkspaceFiles disk files) sent =
            (Status.success, sent ++ messages) := by
  induction files with
  | nil =>
      refine ⟨[], .nil, ?_⟩
      intro sent
      simp [streamWorkspaceFiles]
  | cons file files ih =>
      simp only [List.forall_mem_cons] at hOpens
      rcases ih hOpens.2 with ⟨messages, hMessages, hRun⟩
      have hSound :
          (disk file.localPath).SoundBefore 0 := by
        intro position hFault hLength
        omega
      rcases
          run_streamChunks (disk file.localPath)
            file.relativePath 0 true (Nat.dvd_zero _) hSound
        with ⟨chunks, hChunks, hFile⟩
      rw [List.drop_zero] at hChunks
      refine ⟨_, .cons hChunks hMessages, ?_⟩
      intro sent
      have hStream :
          Core.Prog.run sending (streamFile disk file) sent =
            (Status.success,
              sent ++ chunks.map TaskRequest.fileChunk) := by
        unfold streamFile
        simp only [hOpens.1, if_true]
        exact hFile sent
      unfold streamWorkspaceFiles
      rw [Core.Prog.run_bind, hStream]
      simp [Status.isOk, Status.success, hRun]

/- A file that cannot be opened fails the whole upload. -/
theorem run_streamWorkspaceFiles_of_missing
    (disk : LocalDisk)
    (files : List UploadFileSpec)
    (hMissing :
      ∃ file ∈ files, (disk file.localPath).opens = false)
    (sent : List TaskRequest) :
    (Core.Prog.run sending
      (streamWorkspaceFiles disk files) sent).1.isOk =
        false := by
  induction files generalizing sent with
  | nil => simp at hMissing
  | cons file files ih =>
      unfold streamWorkspaceFiles
      rw [Core.Prog.run_bind]
      split
      · rename_i hOk
        apply ih
        rcases hMissing with ⟨missing, hMem, hClosed⟩
        rcases List.mem_cons.mp hMem with rfl | hMem
        · simp [streamFile, hClosed, Status.isOk] at hOk
        · exact ⟨missing, hMem, hClosed⟩
      · rename_i hFailed
        simpa using hFailed

end Drex
