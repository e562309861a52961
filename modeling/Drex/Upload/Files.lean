import Drex.Client.Stream
import Drex.Server.Reassembly

/-
  The chunks of one file put back together by the server.

  Key definitions include:
    * `IsTarget`
    * `WriteFaults.FailsWithin`
    * `CanOpen`

  Key theorems include:
    * `alone_run_tail`
    * `alone_run_file`
    * `alone_run_file_fails`
-/

------------------------------------------------------------
-- The Chunks Of An Open File
------------------------------------------------------------

namespace Drex

/- A relative path that names this file below the base. -/
structure IsTarget
    (base : Path)
    (relativePath : Str)
    (target : Path) : Prop where
  nonempty : relativePath ≠ []
  path :
    lexicallyNormalized base (Path.ofString relativePath) =
      target
  sub : isSubPath base target = true
  slash : target.slash = false
  parent : target.parentPath.loc = target.loc.dropLast
  loc : target.loc ≠ []

/- A write of a block in this part of the file fails. -/
def WriteFaults.FailsWithin
    (F : WriteFaults)
    (l : Loc)
    (start count : Nat) : Prop :=
  ∃ offset, kChunkSize ∣ offset ∧ start ≤ offset ∧
    offset < start + count ∧ F.fails l offset = true

theorem kChunkSize_pos : 0 < kChunkSize := by
  decide

/- Blocks start a whole block apart. -/
theorem add_kChunkSize_le
    {start offset : Nat}
    (hStart : kChunkSize ∣ start)
    (hOffset : kChunkSize ∣ offset)
    (hLt : start < offset) :
    start + kChunkSize ≤ offset := by
  have hLe : kChunkSize ≤ offset - start :=
    Nat.le_of_dvd (Nat.sub_pos_of_lt hLt)
      (Nat.dvd_sub hOffset hStart)
  omega

section
variable {F : WriteFaults} {l : Loc} {start count : Nat}

/- A part of less than a block is written at once. -/
theorem failsWithin_short_iff
    (hBlock : kChunkSize ∣ start)
    (hCount : 0 < count)
    (hShort : count < kChunkSize) :
    F.FailsWithin l start count ↔
      F.fails l start = true := by
  constructor
  · rintro ⟨offset, hDvd, hLow, hHigh, hFails⟩
    rcases Nat.eq_or_lt_of_le hLow with rfl | hLt
    · exact hFails
    · have hNext := add_kChunkSize_le hBlock hDvd hLt
      omega
  · intro hFails
    exact ⟨start, hBlock, le_refl _, by omega, hFails⟩

/- A longer part is its first block and the others. -/
theorem failsWithin_block_iff
    (hBlock : kChunkSize ∣ start) :
    F.FailsWithin l start (kChunkSize + count) ↔
      F.fails l start = true ∨
        F.FailsWithin l (start + kChunkSize) count := by
  have hPos := kChunkSize_pos
  constructor
  · rintro ⟨offset, hDvd, hLow, hHigh, hFails⟩
    rcases Nat.eq_or_lt_of_le hLow with rfl | hLt
    · exact Or.inl hFails
    · have hNext := add_kChunkSize_le hBlock hDvd hLt
      exact Or.inr ⟨offset, hDvd, hNext, by omega, hFails⟩
  · rintro (hFails | ⟨offset, hDvd, hLow, hHigh, hFails⟩)
    · exact ⟨start, hBlock, le_refl _, by omega, hFails⟩
    · exact ⟨offset, hDvd, by omega, by omega, hFails⟩

end

namespace DownloadSession

variable {F : WriteFaults} {oracle : ServerOracle} {i : Nat}

/- A chunk for the open file whose end is not flagged. -/
theorem alone_chunk_more
    (h : F.Governs oracle)
    (chunk : TaskFileChunk)
    {base target : Path}
    {s : DownloadSession}
    {st : ServerState}
    {content : Bytes}
    (hTarget : IsTarget base chunk.relativePath target)
    (hReceiving : s.Receiving base)
    (hWriting : s.Writing st.store target content)
    (hStart : chunk.fileStart = false)
    (hData : chunk.data ≠ [])
    (hGood : F.fails target.loc content.length = false)
    (hEnd : chunk.fileEnd = false) :
    ∃ s',
      Core.Prog.run (alone i oracle)
          (s.handleFileChunk chunk) st =
        ((s', Status.success),
          withContent st target (content ++ chunk.data)) ∧
      s'.Receiving base ∧
        s'.Writing
          (withContent st target (content ++ chunk.data)).store
          target (content ++ chunk.data) := by
  have hNext :=
    alone_handleFileChunk_next i oracle st hReceiving
      hTarget.nonempty hTarget.path hTarget.sub
      hWriting.outfile hWriting.current hStart
  have hStore :=
    alone_storeChunk (i := i) h hWriting hData hGood
  simp only [hEnd, Bool.false_eq_true, if_false] at hStore
  refine ⟨_, hNext.trans hStore, ?_, ?_⟩
  · exact ⟨hReceiving.received, hReceiving.workspacePath⟩
  · exact writing_advanced hWriting.current _ _

/- A chunk for the open file whose end is flagged. -/
theorem alone_chunk_end
    (h : F.Governs oracle)
    (chunk : TaskFileChunk)
    {base target : Path}
    {s : DownloadSession}
    {st : ServerState}
    {content : Bytes}
    (hTarget : IsTarget base chunk.relativePath target)
    (hReceiving : s.Receiving base)
    (hWriting : s.Writing st.store target content)
    (hStart : chunk.fileStart = false)
    (hData : chunk.data ≠ [])
    (hGood : F.fails target.loc content.length = false)
    (hEnd : chunk.fileEnd = true) :
    ∃ s' st',
      Core.Prog.run (alone i oracle)
          (s.handleFileChunk chunk) st =
        ((s', Status.success), st') ∧
      s'.Receiving base ∧
        (s'.settled F st'.store).node =
          Function.update st.store.node target.loc
            (some (.file
              (F.kept target.loc
                (content ++ chunk.data)))) := by
  have hNext :=
    alone_handleFileChunk_next i oracle st hReceiving
      hTarget.nonempty hTarget.path hTarget.sub
      hWriting.outfile hWriting.current hStart
  have hStore :=
    alone_storeChunk (i := i) h hWriting hData hGood
  simp only [hEnd, if_true] at hStore
  have hWritten :=
    writing_advanced hWriting.current st
      (content ++ chunk.data)
  refine ⟨_, _, hNext.trans hStore, ?_, ?_⟩
  · exact ⟨hReceiving.received, hReceiving.workspacePath⟩
  · have hSettled := hWritten.settled (F := F)
    simp only [withContent, Function.update_idem] at hSettled
    exact hSettled

/- A chunk for the open file whose write fails. -/
theorem alone_chunk_fails
    (h : F.Governs oracle)
    (chunk : TaskFileChunk)
    {base target : Path}
    {s : DownloadSession}
    {st : ServerState}
    {content : Bytes}
    (hTarget : IsTarget base chunk.relativePath target)
    (hReceiving : s.Receiving base)
    (hWriting : s.Writing st.store target content)
    (hStart : chunk.fileStart = false)
    (hData : chunk.data ≠ [])
    (hFails : F.fails target.loc content.length = true) :
    (Core.Prog.run (alone i oracle)
      (s.handleFileChunk chunk) st).1.2.isOk = false := by
  have hNext :=
    alone_handleFileChunk_next i oracle st hReceiving
      hTarget.nonempty hTarget.path hTarget.sub
      hWriting.outfile hWriting.current hStart
  rw [hNext]
  exact
    alone_storeChunk_fails h st hWriting.outfile hData hFails

/-
  The chunks that follow the first one are appended to the
  file that is open, whose content is the invariant.
-/
theorem alone_run_tail
    (h : F.Governs oracle)
    (root : WorkspaceRoot)
    {base target : Path}
    {relativePath : Str}
    (hTarget : IsTarget base relativePath target)
    {chunks : List TaskFileChunk}
    {bytes : Bytes}
    (hChunks : FileChunks relativePath false chunks bytes)
    {s : DownloadSession}
    {st : ServerState}
    {content : Bytes}
    (hReceiving : s.Receiving base)
    (hWriting : s.Writing st.store target content)
    (hBlock : kChunkSize ∣ content.length)
    (hGood :
      ¬ F.FailsWithin target.loc content.length
        bytes.length)
    (rest : List TaskRequest) :
    ∃ s' st',
      Core.Prog.run (alone i oracle)
          (run root s
            (chunks.map TaskRequest.fileChunk ++ rest)) st =
        Core.Prog.run (alone i oracle) (run root s' rest)
          st' ∧
      s'.Receiving base ∧
        (s'.settled F st'.store).node =
          Function.update st.store.node target.loc
            (some (.file
              (F.kept target.loc (content ++ bytes)))) := by
  generalize hFirst : false = firstChunk at hChunks
  induction hChunks generalizing s st content with
  | done firstChunk =>
      refine ⟨s, st, rfl, hReceiving, ?_⟩
      rw [List.append_nil]
      exact hWriting.settled
  | @last firstChunk data size hData hLength =>
      subst hFirst
      rw [failsWithin_short_iff hBlock
        (List.length_pos_of_ne_nil hData) hLength] at hGood
      have hWrite := Bool.eq_false_of_not_eq_true hGood
      rcases
          alone_chunk_end (i := i) h
            ⟨data, relativePath, false, true, size⟩
            hTarget hReceiving hWriting rfl hData hWrite rfl
        with ⟨s', st', hChunk, hReceiving', hNode⟩
      have hRun := alone_run_cons h root rest hChunk
      exact ⟨s', st', hRun, hReceiving', hNode⟩
  | @more firstChunk data bytes chunks size hData hLength
      hRest ih =>
      subst hFirst
      rw [List.length_append, hLength,
        failsWithin_block_iff hBlock, not_or] at hGood
      rcases hGood with ⟨hGoodHere, hGoodRest⟩
      have hWrite := Bool.eq_false_of_not_eq_true hGoodHere
      rcases
          alone_chunk_more (i := i) h
            ⟨data, relativePath, false, false, size⟩
            hTarget hReceiving hWriting rfl hData hWrite rfl
        with ⟨s', hChunk, hReceiving', hWriting'⟩
      have hBlock' :
          kChunkSize ∣ (content ++ data).length := by
        rw [List.length_append, hLength]
        exact Nat.dvd_add_self_right.mpr hBlock
      have hGood' :
          ¬ F.FailsWithin target.loc (content ++ data).length
            bytes.length := by
        rw [List.length_append, hLength]
        exact hGoodRest
      rcases ih hReceiving' hWriting' hBlock' hGood' rfl with
        ⟨s'', st'', hRun, hReceiving'', hNode⟩
      refine ⟨s'', st'', ?_, hReceiving'', ?_⟩
      · have hCons :=
          alone_run_cons h root
            (chunks.map TaskRequest.fileChunk ++ rest) hChunk
        exact hCons.trans hRun
      · rw [hNode, List.append_assoc]
        exact Function.update_idem _ _ _

/- A failing write of a later chunk ends the upload. -/
theorem alone_run_tail_fails
    (h : F.Governs oracle)
    (root : WorkspaceRoot)
    {base target : Path}
    {relativePath : Str}
    (hTarget : IsTarget base relativePath target)
    {chunks : List TaskFileChunk}
    {bytes : Bytes}
    (hChunks : FileChunks relativePath false chunks bytes)
    {s : DownloadSession}
    {st : ServerState}
    {content : Bytes}
    (hReceiving : s.Receiving base)
    (hWriting : s.Writing st.store target content)
    (hBlock : kChunkSize ∣ content.length)
    (hFails :
      F.FailsWithin target.loc content.length bytes.length)
    (rest : List TaskRequest) :
    (Core.Prog.run (alone i oracle)
        (run root s
          (chunks.map TaskRequest.fileChunk ++ rest))
        st).1.2.isOk = false := by
  generalize hFirst : false = firstChunk at hChunks
  induction hChunks generalizing s st content with
  | done firstChunk =>
      rcases hFails with ⟨offset, _, hLow, hHigh, _⟩
      simp only [List.length_nil] at hHigh
      omega
  | @last firstChunk data size hData hLength =>
      subst hFirst
      have hWrite :=
        (failsWithin_short_iff hBlock
          (List.length_pos_of_ne_nil hData) hLength).mp hFails
      apply alone_run_cons_fails h root rest
      exact
        alone_chunk_fails h
          ⟨data, relativePath, false, true, size⟩
          hTarget hReceiving hWriting rfl hData hWrite
  | @more firstChunk data bytes chunks size hData hLength
      hRest ih =>
      subst hFirst
      cases hWrite : F.fails target.loc content.length with
      | true =>
          apply alone_run_cons_fails h root
          exact
            alone_chunk_fails h
              ⟨data, relativePath, false, false, size⟩
              hTarget hReceiving hWriting rfl hData hWrite
      | false =>
          rcases
              alone_chunk_more (i := i) h
                ⟨data, relativePath, false, false, size⟩
                hTarget hReceiving hWriting rfl hData hWrite
                rfl
            with ⟨s', hChunk, hReceiving', hWriting'⟩
          have hBlock' :
              kChunkSize ∣ (content ++ data).length := by
            rw [List.length_append, hLength]
            exact Nat.dvd_add_self_right.mpr hBlock
          have hFails' :
              F.FailsWithin target.loc
                (content ++ data).length bytes.length := by
            rw [List.length_append, hLength,
              failsWithin_block_iff hBlock, hWrite] at hFails
            rw [List.length_append, hLength]
            exact hFails.resolve_left Bool.false_ne_true
          have hRun :=
            ih hReceiving' hWriting' hBlock' hFails' rfl
          have hCons :=
            alone_run_cons h root
              (chunks.map TaskRequest.fileChunk ++ rest)
              hChunk
          rw [List.map_cons, List.cons_append, hCons]
          exact hRun

end DownloadSession

end Drex

------------------------------------------------------------
-- A Whole File
------------------------------------------------------------

namespace Drex

/- The chunks of a file, less the flag that opens it. -/
theorem FileChunks.split
    {relativePath : Str}
    {chunks : List TaskFileChunk}
    {bytes : Bytes}
    (h : FileChunks relativePath true chunks bytes)
    (hBytes : bytes ≠ []) :
    ∃ chunk rest, chunks = chunk :: rest ∧
      chunk.fileStart = true ∧
        chunk.relativePath = relativePath ∧
          FileChunks relativePath false
            ({ chunk with fileStart := false } :: rest)
            bytes := by
  cases h with
  | done => exact absurd rfl hBytes
  | last _ size hData hLength =>
      exact
        ⟨_, [], rfl, rfl, rfl,
          .last false size hData hLength⟩
  | more _ size hData hLength hRest =>
      exact
        ⟨_, _, rfl, rfl, rfl,
          .more false size hData hLength hRest⟩

theorem FileChunks.nil_of_bytes
    {relativePath : Str}
    {firstChunk : Bool}
    {chunks : List TaskFileChunk}
    {bytes : Bytes}
    (h : FileChunks relativePath firstChunk chunks bytes)
    (hBytes : bytes = []) :
    chunks = [] := by
  cases h with
  | done => rfl
  | last _ size hData hLength => exact absurd hBytes hData
  | more _ size hData hLength hRest =>
      have hNil := (List.append_eq_nil_iff.mp hBytes).1
      exact absurd hNil hData

namespace DownloadSession

variable {F : WriteFaults} {oracle : ServerOracle} {i : Nat}

/- The server state in which the target was just opened. -/
def openedState
    (F : WriteFaults)
    (s : DownloadSession)
    (st : ServerState)
    (target : Path) :
    ServerState :=
  { st with
    store :=
      { node :=
          Function.update
            ((s.settled F st.store).createDirectories
              target.loc.dropLast).node
            target.loc (some (.file [])) } }

/- The target can be opened. -/
structure CanOpen
    (F : WriteFaults)
    (s : DownloadSession)
    (st : ServerState)
    (target : Path) : Prop where
  passable :
    (s.settled F st.store).Passable target.loc.dropLast
  free :
    (s.settled F st.store).node target.loc ≠ some .directory

theorem writing_opened
    (s : DownloadSession)
    (st : ServerState)
    (target : Path) :
    (s.opened target).Writing
      (openedState F s st target).store target [] := by
  constructor
  · rfl
  · rfl
  · exact Function.update_self _ _ _

/-
  After its first chunk a file is handled as if it had been
  open already.
-/
theorem alone_run_first
    (h : F.Governs oracle)
    (root : WorkspaceRoot)
    {base target : Path}
    {s : DownloadSession}
    {st : ServerState}
    {chunk : TaskFileChunk}
    (hTarget : IsTarget base chunk.relativePath target)
    (hReceiving : s.Receiving base)
    (hStart : chunk.fileStart = true)
    (hCan : CanOpen F s st target)
    (rest : List TaskRequest) :
    Core.Prog.run (alone i oracle)
        (run root s (.fileChunk chunk :: rest)) st =
      Core.Prog.run (alone i oracle)
        (run root (s.opened target)
          (.fileChunk { chunk with fileStart := false } ::
            rest))
        (openedState F s st target) := by
  have hOpen :=
    alone_openOutputFile (i := i) h hTarget.slash
      hTarget.parent hCan.passable hCan.free hTarget.loc
  have hFirst :=
    alone_handleFileChunk_first hReceiving hTarget.nonempty
      hTarget.path hTarget.sub hStart hOpen
  have hReceiving' : (s.opened target).Receiving base :=
    ⟨hReceiving.received, hReceiving.workspacePath⟩
  have hOpened := writing_opened (F := F) s st target
  have hNext :
      Core.Prog.run (alone i oracle)
          ((s.opened target).handleFileChunk
            { chunk with fileStart := false })
          (openedState F s st target) =
        Core.Prog.run (alone i oracle)
          ((s.opened target).storeChunk
            { chunk with fileStart := false })
          (openedState F s st target) :=
    alone_handleFileChunk_next i oracle _ hReceiving'
      hTarget.nonempty hTarget.path hTarget.sub
      hOpened.outfile hOpened.current rfl
  rw [alone_run_message h, alone_run_message h,
    Core.Prog.run_bind, Core.Prog.run_bind]
  unfold handleMessage
  simp only []
  rw [Core.Prog.run_bind, Core.Prog.run_bind, hFirst, hNext]
  rfl

/- A file whose writes all succeed is stored. -/
theorem alone_run_file
    (h : F.Governs oracle)
    (root : WorkspaceRoot)
    {base target : Path}
    {relativePath : Str}
    (hTarget : IsTarget base relativePath target)
    {chunks : List TaskFileChunk}
    {bytes : Bytes}
    (hChunks : FileChunks relativePath true chunks bytes)
    (hBytes : bytes ≠ [])
    {s : DownloadSession}
    {st : ServerState}
    (hReceiving : s.Receiving base)
    (hCan : CanOpen F s st target)
    (hGood : ¬ F.FailsWithin target.loc 0 bytes.length)
    (rest : List TaskRequest) :
    ∃ s' st',
      Core.Prog.run (alone i oracle)
          (run root s
            (chunks.map TaskRequest.fileChunk ++ rest)) st =
        Core.Prog.run (alone i oracle) (run root s' rest)
          st' ∧
      s'.Receiving base ∧
        (s'.settled F st'.store).node =
          Function.update
            ((s.settled F st.store).createDirectories
              target.loc.dropLast).node
            target.loc
            (some (.file (F.kept target.loc bytes))) := by
  rcases hChunks.split hBytes with
    ⟨chunk, later, rfl, hStart, rfl, hTail⟩
  have hReceiving' : (s.opened target).Receiving base :=
    ⟨hReceiving.received, hReceiving.workspacePath⟩
  rcases
      alone_run_tail (i := i) h root hTarget hTail
        hReceiving' (writing_opened s st target)
        (Nat.dvd_zero _) hGood rest with
    ⟨s', st', hRun, hReceiving'', hNode⟩
  refine ⟨s', st', ?_, hReceiving'', ?_⟩
  · have hFirst :=
      alone_run_first (i := i) h root hTarget hReceiving
        hStart hCan
        (later.map TaskRequest.fileChunk ++ rest)
    exact hFirst.trans hRun
  · rw [hNode, List.nil_append]
    exact Function.update_idem _ _ _

/- A failing write of a file ends the upload. -/
theorem alone_run_file_fails
    (h : F.Governs oracle)
    (root : WorkspaceRoot)
    {base target : Path}
    {relativePath : Str}
    (hTarget : IsTarget base relativePath target)
    {chunks : List TaskFileChunk}
    {bytes : Bytes}
    (hChunks : FileChunks relativePath true chunks bytes)
    {s : DownloadSession}
    {st : ServerState}
    (hReceiving : s.Receiving base)
    (hCan : CanOpen F s st target)
    (hFails : F.FailsWithin target.loc 0 bytes.length)
    (rest : List TaskRequest) :
    (Core.Prog.run (alone i oracle)
        (run root s
          (chunks.map TaskRequest.fileChunk ++ rest))
        st).1.2.isOk = false := by
  have hBytes : bytes ≠ [] := by
    rintro rfl
    rcases hFails with ⟨offset, _, _, hHigh, _⟩
    simp at hHigh
  rcases hChunks.split hBytes with
    ⟨chunk, later, rfl, hStart, rfl, hTail⟩
  have hReceiving' : (s.opened target).Receiving base :=
    ⟨hReceiving.received, hReceiving.workspacePath⟩
  have hFirst :=
    alone_run_first (i := i) h root hTarget hReceiving
      hStart hCan (later.map TaskRequest.fileChunk ++ rest)
  rw [List.map_cons, List.cons_append, hFirst]
  exact
    alone_run_tail_fails h root hTarget hTail hReceiving'
      (writing_opened s st target) (Nat.dvd_zero _) hFails
      rest

end DownloadSession

end Drex
