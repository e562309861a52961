import Drex.Core.Pieces
import Drex.Upload.RoundTrip

/-
  Chunks of several files that arrive interleaved.

  A session keeps one file open and truncates a file it comes
  back to, so it follows the reader with one open key.

  Key definitions include:
    * `pieceOf`
    * `DownloadSession.Assembled`
    * `Reassembled`

  Key theorems include:
    * `assembled_handleFileChunk`
    * `assembled_run`
    * `reassembled_iff`
-/

------------------------------------------------------------
-- Chunks As Pieces
------------------------------------------------------------

namespace Drex

/- A chunk as a piece of the file at its target. -/
def pieceOf
    (base : Path)
    (chunk : TaskFileChunk) :
    Core.Piece Loc UInt8 :=
  { key := (DownloadSession.targetPath base chunk).loc
    starts := chunk.fileStart
    ends := chunk.fileEnd
    data := chunk.data }

/- The chunks of a stream as pieces. -/
def piecesOf
    (base : Path)
    (chunks : List TaskFileChunk) :
    List (Core.Piece Loc UInt8) :=
  chunks.map (pieceOf base)

/- An absolute path of ordinary names. -/
structure Normal (p : Path) : Prop where
  absolute : p.absolute = true
  ordinary : ∀ n ∈ p.names, n.Ordinary

theorem normal_targetPath
    {base : Path}
    (hBase : base.absolute = true)
    (chunk : TaskFileChunk) :
    Normal (DownloadSession.targetPath base chunk) := by
  rcases lexicallyNormalized_ordinary
      (Path.ofString chunk.relativePath) hBase with
    ⟨hAbsolute, hOrdinary⟩
  exact ⟨hAbsolute, hOrdinary⟩

/- Normal paths without a separator differ in their place. -/
theorem Normal.eq_of_loc
    {p q : Path}
    (hp : Normal p)
    (hq : Normal q)
    (hpSlash : p.slash = false)
    (hqSlash : q.slash = false)
    (hLoc : p.loc = q.loc) :
    p = q := by
  rw [Path.loc_of_ordinary hp.ordinary,
    Path.loc_of_ordinary hq.ordinary] at hLoc
  apply Path.ext
  · rw [hp.absolute, hq.absolute]
  · exact hLoc
  · rw [hpSlash, hqSlash]

end Drex

------------------------------------------------------------
-- Files Of A Session
------------------------------------------------------------

namespace Drex

namespace DownloadSession

variable {F : WriteFaults} {oracle : ServerOracle} {i : Nat}

/-
  The session has stored these pieces: the file that is open
  is the one the reader has open, and every file has what
  the reader has of it, less what closing it loses.
-/
structure Assembled
    (F : WriteFaults)
    (s : DownloadSession)
    (store : Store)
    (pieces : List (Core.Piece Loc UInt8)) : Prop where
  idle :
    s.outfile = none → (Core.assemble pieces).current = none
  opened :
    ∀ file, s.outfile = some file →
      Normal file.path ∧ file.path.slash = false ∧
        (Core.assemble pieces).current =
            some file.path.loc ∧
          s.Writing store file.path
            ((Core.assemble pieces).contents file.path.loc)
  files :
    ∀ p ∈ pieces,
      (s.settled F store).HasFile p.key
        (F.kept p.key ((Core.assemble pieces).contents p.key))

theorem assembled_nil
    {s : DownloadSession}
    (hNone : s.outfile = none)
    (store : Store) :
    s.Assembled F store [] := by
  constructor
  · intro _
    rfl
  · intro file hFile
    rw [hNone] at hFile
    cases hFile
  · simp

/- Every other file is as it was before. -/
def OthersKept
    (l : Loc)
    (before after : Store) : Prop :=
  ∀ q data, q ≠ l → before.HasFile q data →
    after.HasFile q data

/- Opening a file that succeeds leaves it empty. -/
theorem alone_openOutputFile_ok
    (h : F.Governs oracle)
    {s s' : DownloadSession}
    {st st' : ServerState}
    {target : Path}
    {status : Status}
    (hRun :
      Core.Prog.run (alone i oracle)
          (s.openOutputFile target) st =
        ((s', status), st'))
    (hOk : status.isOk = true) :
    target.slash = false ∧ s' = s.opened target ∧
      st'.store.HasFile target.loc [] ∧
        OthersKept target.loc (s.settled F st.store)
          st'.store := by
  unfold openOutputFile at hRun
  rw [Core.Prog.run_bind, alone_closeCurrentFile h,
    Core.Prog.run_bind, Core.Prog.run_perform] at hRun
  have hDirAnswer :=
    h.createDirectories target.parentPath
      { st with store := s.settled F st.store }
  by_cases hPassable :
      (s.settled F st.store).passable
        target.parentPath.loc = true
  · rw [alone_createDirectories h
        (s := { st with store := s.settled F st.store })
        ((Store.passable_iff _ _).mp hPassable)] at hRun
    simp only [Option.isSome_none, Bool.false_eq_true,
      if_false] at hRun
    rw [Core.Prog.run_bind, Core.Prog.run_perform] at hRun
    generalize hMade :
      (s.settled F st.store).createDirectories
        target.parentPath.loc = made at hRun
    have hOpenAnswer :=
      h.openTrunc target { st with store := made }
    simp only [alone, exec, Store.tryOpen, hOpenAnswer,
      true_and] at hRun
    split at hRun
    · rename_i hSlash
      cases hOpen : made.openTrunc target.loc with
      | none =>
          rw [hOpen] at hRun
          cases hRun
          cases hOk
      | some opened =>
          rw [hOpen] at hRun
          cases hRun
          have hNode := Store.node_openTrunc hOpen
          refine ⟨hSlash, rfl, ?_, ?_⟩
          · unfold Store.HasFile
            rw [hNode]
            exact Function.update_self _ _ _
          · intro q data hNe hFile
            unfold Store.HasFile
            rw [hNode, Function.update_of_ne hNe, ← hMade]
            exact
              (Store.createDirectories_file_iff _ _ _
                _).mpr hFile
    · cases hRun
      cases hOk
  · have hRefused :
        ∃ message,
          (alone i oracle
            (.createDirectories target.parentPath)
            { st with
              store := s.settled F st.store }).1 =
            some message := by
      simp [alone, exec, Store.tryCreateDirectories,
        hDirAnswer, hPassable]
    rcases hRefused with ⟨message, hMessage⟩
    simp only [hMessage, Option.isSome_some, if_true] at hRun
    cases hRun
    cases hOk

end DownloadSession

end Drex

------------------------------------------------------------
-- Storing A Chunk
------------------------------------------------------------

namespace Drex

namespace DownloadSession

variable {F : WriteFaults} {oracle : ServerOracle} {i : Nat}

/- Writing that succeeds appends to the file that is open. -/
theorem alone_writeChunkData_ok
    (h : F.Governs oracle)
    {s s' : DownloadSession}
    {st st' : ServerState}
    {base target : Path}
    {content data : Bytes}
    {status : Status}
    (hReceiving : s.Receiving base)
    (hWriting : s.Writing st.store target content)
    (hRun :
      Core.Prog.run (alone i oracle) (s.writeChunkData data)
          st =
        ((s', status), st'))
    (hOk : status.isOk = true) :
    s'.Receiving base ∧
      s'.Writing st'.store target (content ++ data) ∧
        OthersKept target.loc st.store st'.store := by
  by_cases hData : data = []
  · subst hData
    cases hRun
    rw [List.append_nil]
    exact
      ⟨hReceiving, hWriting, fun q bytes _ hFile => hFile⟩
  · cases hFails : F.fails target.loc content.length with
    | true =>
        have hFailed :=
          alone_writeChunkData_fails (i := i) h st
            hWriting.outfile hData hFails
        rw [hRun] at hFailed
        change status.isOk = false at hFailed
        rw [hOk] at hFailed
        cases hFailed
    | false =>
        rw [alone_writeChunkData h hWriting hData hFails]
          at hRun
        cases hRun
        refine ⟨?_, ?_, ?_⟩
        · exact
            ⟨hReceiving.received, hReceiving.workspacePath⟩
        · exact writing_advanced hWriting.current _ _
        · intro q bytes hNe hFile
          unfold Store.HasFile
          rw [← hFile]
          exact Function.update_of_ne hNe _ _

/- The session and the disk after a chunk was stored. -/
structure ChunkStored
    (F : WriteFaults)
    (base target : Path)
    (content : Bytes)
    (fileEnd : Bool)
    (before : Store)
    (s' : DownloadSession)
    (store' : Store) : Prop where
  receiving : s'.Receiving base
  outfile :
    if fileEnd then
      s'.outfile = none
    else
      s'.Writing store' target content
  file :
    (s'.settled F store').HasFile target.loc
      (F.kept target.loc content)
  others :
    OthersKept target.loc before (s'.settled F store')

/- Closing the file that is open changes no other file. -/
theorem othersKept_settled
    {s : DownloadSession}
    {before store : Store}
    {target : Path}
    {content : Bytes}
    (hWriting : s.Writing store target content)
    (h : OthersKept target.loc before store) :
    OthersKept target.loc before (s.settled F store) := by
  intro q data hNe hFile
  unfold Store.HasFile
  rw [hWriting.settled, Function.update_of_ne hNe]
  exact h q data hNe hFile

theorem hasFile_settled
    {s : DownloadSession}
    {store : Store}
    {target : Path}
    {content : Bytes}
    (hWriting : s.Writing store target content) :
    (s.settled F store).HasFile target.loc
      (F.kept target.loc content) := by
  unfold Store.HasFile
  rw [hWriting.settled]
  exact Function.update_self _ _ _

theorem alone_storeChunk_ok
    (h : F.Governs oracle)
    {s s' : DownloadSession}
    {st st' : ServerState}
    {base target : Path}
    {content : Bytes}
    {chunk : TaskFileChunk}
    {status : Status}
    (hReceiving : s.Receiving base)
    (hWriting : s.Writing st.store target content)
    (hRun :
      Core.Prog.run (alone i oracle) (s.storeChunk chunk) st =
        ((s', status), st'))
    (hOk : status.isOk = true) :
    ChunkStored F base target (content ++ chunk.data)
      chunk.fileEnd st.store s' st'.store := by
  unfold storeChunk at hRun
  rw [Core.Prog.run_bind] at hRun
  generalize hWrite :
    Core.Prog.run (alone i oracle)
      (s.writeChunkData chunk.data) st = written at hRun
  rcases written with ⟨⟨s₁, written⟩, st₁⟩
  simp only at hRun
  split at hRun
  · rename_i hWritten
    rcases
        alone_writeChunkData_ok h hReceiving hWriting hWrite
          hWritten
      with ⟨hReceiving₁, hWriting₁, hOthers₁⟩
    have hFile := hasFile_settled (F := F) hWriting₁
    have hKept := othersKept_settled (F := F) hWriting₁ hOthers₁
    split at hRun
    · rename_i hEnd
      rw [Core.Prog.run_bind, alone_closeCurrentFile h]
        at hRun
      cases hRun
      constructor
      · exact
          ⟨hReceiving₁.received, hReceiving₁.workspacePath⟩
      · rw [if_pos hEnd]
        rfl
      · exact hFile
      · exact hKept
    · rename_i hNoEnd
      cases hRun
      constructor
      · exact hReceiving₁
      · rw [if_neg hNoEnd]
        exact hWriting₁
      · exact hFile
      · exact hKept
  · rename_i hFailed
    cases hRun
    exact absurd hOk hFailed

end DownloadSession

end Drex

------------------------------------------------------------
-- One Chunk
------------------------------------------------------------

namespace Drex

namespace DownloadSession

variable {F : WriteFaults} {oracle : ServerOracle} {i : Nat}

/- The file a piece goes on with, before its data. -/
def continued
    (pieces : List (Core.Piece Loc UInt8))
    (p : Core.Piece Loc UInt8) :
    Bytes :=
  if (Core.assemble pieces).Opens p then
    []
  else
    (Core.assemble pieces).contents p.key

section
variable {s s' : DownloadSession}
variable {store store' : Store}
variable {base : Path}
variable {pieces : List (Core.Piece Loc UInt8)}
variable {chunk : TaskFileChunk}

/- Where the session opens a file, so does the reader. -/
theorem Assembled.opens
    (h : s.Assembled F store pieces)
    (hBase : base.absolute = true)
    (hSlash : (targetPath base chunk).slash = false)
    (hNew :
      s.needNewFile (targetPath base chunk)
        chunk.fileStart = true) :
    (Core.assemble pieces).Opens (pieceOf base chunk) := by
  by_cases hStart : chunk.fileStart = true
  · exact Or.inl hStart
  · right
    intro hCurrent
    cases hOutfile : s.outfile with
    | none =>
        rw [h.idle hOutfile] at hCurrent
        cases hCurrent
    | some file =>
        rcases h.opened file hOutfile with
          ⟨hNormal, hFileSlash, hFileCurrent, hWriting⟩
        rw [hFileCurrent] at hCurrent
        have hSame : file.path = targetPath base chunk :=
          hNormal.eq_of_loc (normal_targetPath hBase chunk)
            hFileSlash hSlash (Option.some.inj hCurrent)
        rw [hSame] at hWriting
        have hNot :
            s.needNewFile (targetPath base chunk) false =
              false := by
          simp [needNewFile, hOutfile, hWriting.current]
        have hNoStart : chunk.fileStart = false := by
          simpa using hStart
        rw [hNoStart, hNot] at hNew
        cases hNew

/- Where the session keeps its file, the reader goes on. -/
theorem Assembled.continues
    (h : s.Assembled F store pieces)
    (hKeep :
      ¬ s.needNewFile (targetPath base chunk)
          chunk.fileStart = true) :
    (targetPath base chunk).slash = false ∧
      s.Writing store (targetPath base chunk)
          ((Core.assemble pieces).contents
            (targetPath base chunk).loc) ∧
        ¬ (Core.assemble pieces).Opens
            (pieceOf base chunk) := by
  have hParts :
      s.outfile ≠ none ∧ chunk.fileStart = false ∧
        targetPath base chunk = s.currentFilePath := by
    simpa [needNewFile, and_assoc] using hKeep
  cases hOutfile : s.outfile with
  | none => exact absurd hOutfile hParts.1
  | some file =>
      rcases h.opened file hOutfile with
        ⟨_, hSlash, hCurrent, hWriting⟩
      have hSame : targetPath base chunk = file.path := by
        rw [hParts.2.2, hWriting.current]
      rw [← hSame] at hSlash hCurrent hWriting
      refine ⟨hSlash, hWriting, ?_⟩
      rintro (hStart | hCut)
      · change chunk.fileStart = true at hStart
        rw [hParts.2.1] at hStart
        cases hStart
      · exact hCut hCurrent

/-
  The file of a chunk is open afterwards, empty where the
  reader starts anew and as it was where the reader goes on.
-/
theorem alone_ensureOutputFile_ok
    (h : F.Governs oracle)
    {st st' : ServerState}
    {status : Status}
    (hBase : base.absolute = true)
    (hReceiving : s.Receiving base)
    (hAssembled : s.Assembled F st.store pieces)
    (hRun :
      Core.Prog.run (alone i oracle)
          (s.ensureOutputFile (targetPath base chunk)
            chunk.fileStart)
          st =
        ((s', status), st'))
    (hOk : status.isOk = true) :
    (targetPath base chunk).slash = false ∧
      s'.Receiving base ∧
        s'.Writing st'.store (targetPath base chunk)
            (continued pieces (pieceOf base chunk)) ∧
          OthersKept (targetPath base chunk).loc
            (s.settled F st.store) st'.store := by
  unfold ensureOutputFile at hRun
  split at hRun
  · rename_i hNew
    rcases alone_openOutputFile_ok h hRun hOk with
      ⟨hSlash, rfl, hFile, hOthers⟩
    have hWriting :
        (s.opened (targetPath base chunk)).Writing st'.store
          (targetPath base chunk) [] :=
      ⟨rfl, rfl, hFile⟩
    refine ⟨hSlash, ?_, ?_, hOthers⟩
    · exact ⟨hReceiving.received, hReceiving.workspacePath⟩
    · unfold continued
      rw [if_pos (hAssembled.opens hBase hSlash hNew)]
      exact hWriting
  · rename_i hKeep
    cases hRun
    rcases hAssembled.continues hKeep with
      ⟨hSlash, hWriting, hContinues⟩
    refine ⟨hSlash, hReceiving, ?_, ?_⟩
    · unfold continued
      rw [if_neg hContinues]
      exact hWriting
    · intro q data hNe hFile
      unfold Store.HasFile at hFile
      rw [hWriting.settled,
        Function.update_of_ne hNe] at hFile
      exact hFile

/- The reader's view, with the piece of a stored chunk. -/
theorem ChunkStored.assembled
    {before : Store}
    (h :
      ChunkStored F base (targetPath base chunk)
        (continued pieces (pieceOf base chunk) ++ chunk.data)
        chunk.fileEnd before s' store')
    (hBase : base.absolute = true)
    (hSlash : (targetPath base chunk).slash = false)
    (hBefore :
      ∀ p ∈ pieces, p.key ≠ (targetPath base chunk).loc →
        before.HasFile p.key
          (F.kept p.key
            ((Core.assemble pieces).contents p.key))) :
    s'.Assembled F store'
      (pieces ++ [pieceOf base chunk]) := by
  have hContents :
      (Core.assemble
          (pieces ++ [pieceOf base chunk])).contents
          (targetPath base chunk).loc =
        continued pieces (pieceOf base chunk) ++
          chunk.data := by
    rw [Core.assemble_snoc]
    exact Core.add_contents_self _ (pieceOf base chunk)
  have hCurrent :
      (Core.assemble
          (pieces ++ [pieceOf base chunk])).current =
        if chunk.fileEnd then
          none
        else
          some (targetPath base chunk).loc := by
    rw [Core.assemble_snoc]
    rfl
  have hOutfile := h.outfile
  constructor
  · intro hNone
    rw [hCurrent]
    split
    · rfl
    · rename_i hNoEnd
      rw [if_neg hNoEnd] at hOutfile
      rw [hOutfile.outfile] at hNone
      cases hNone
  · intro file hFile
    by_cases hEnd : chunk.fileEnd = true
    · rw [if_pos hEnd] at hOutfile
      rw [hOutfile] at hFile
      cases hFile
    · rw [if_neg hEnd] at hOutfile hCurrent
      have hPath : file.path = targetPath base chunk := by
        rw [hOutfile.outfile] at hFile
        cases hFile
        rfl
      rw [hPath, hContents]
      exact
        ⟨normal_targetPath hBase chunk, hSlash, hCurrent,
          hOutfile⟩
  · intro p hMem
    by_cases hKey : p.key = (targetPath base chunk).loc
    · rw [hKey, hContents]
      exact h.file
    · have hOld : p ∈ pieces := by
        rcases List.mem_append.mp hMem with hOld | hNew
        · exact hOld
        · rw [List.mem_singleton.mp hNew] at hKey
          exact absurd rfl hKey
      have hSame :
          (Core.assemble
              (pieces ++ [pieceOf base chunk])).contents
              p.key =
            (Core.assemble pieces).contents p.key := by
        rw [Core.assemble_snoc]
        exact
          Core.add_contents_of_ne _
            (fun hEq => hKey hEq.symm)
      rw [hSame]
      exact h.others _ _ hKey (hBefore p hOld hKey)

/- A chunk that is stored is the reader's next piece. -/
theorem assembled_handleFileChunk
    (h : F.Governs oracle)
    {st st' : ServerState}
    {status : Status}
    (hBase : base.absolute = true)
    (hReceiving : s.Receiving base)
    (hAssembled : s.Assembled F st.store pieces)
    (hRun :
      Core.Prog.run (alone i oracle)
          (s.handleFileChunk chunk) st =
        ((s', status), st'))
    (hOk : status.isOk = true) :
    s'.Receiving base ∧
      s'.Assembled F st'.store
        (pieces ++ [pieceOf base chunk]) := by
  unfold handleFileChunk at hRun
  simp only [hReceiving.received, hReceiving.workspacePath,
    Bool.true_eq_false, if_false] at hRun
  split at hRun
  · cases hRun
    cases hOk
  · split at hRun
    · cases hRun
      cases hOk
    · rw [Core.Prog.run_bind] at hRun
      generalize hEnsure :
        Core.Prog.run (alone i oracle)
          (s.ensureOutputFile (targetPath base chunk)
            chunk.fileStart) st = ensured at hRun
      rcases ensured with ⟨⟨s₁, status₁⟩, st₁⟩
      simp only at hRun
      split at hRun
      · rename_i hOpen
        rcases
            alone_ensureOutputFile_ok h hBase hReceiving
              hAssembled hEnsure hOpen
          with ⟨hSlash, hReceiving₁, hWriting₁, hOthers₁⟩
        have hStored :=
          alone_storeChunk_ok h hReceiving₁ hWriting₁ hRun
            hOk
        refine
          ⟨hStored.receiving,
            hStored.assembled hBase hSlash ?_⟩
        intro p hOld hKey
        exact hOthers₁ _ _ hKey (hAssembled.files p hOld)
      · rename_i hFailed
        cases hRun
        exact absurd hOk hFailed

end

end DownloadSession

end Drex

------------------------------------------------------------
-- A Whole Stream
------------------------------------------------------------

namespace Drex

namespace DownloadSession

variable {F : WriteFaults} {oracle : ServerOracle} {i : Nat}

/-
  A stream of chunks that succeeds leaves every file with
  what the reader has of it, less what closing it loses.
-/
theorem assembled_run
    (h : F.Governs oracle)
    (root : WorkspaceRoot)
    {base : Path}
    (hBase : base.absolute = true)
    (chunks : List TaskFileChunk)
    {pieces : List (Core.Piece Loc UInt8)}
    {s s' : DownloadSession}
    {st st' : ServerState}
    {ending : Ending}
    (hReceiving : s.Receiving base)
    (hAssembled : s.Assembled F st.store pieces)
    (hRun :
      Core.Prog.run (alone i oracle)
          (run root s (chunks.map TaskRequest.fileChunk))
          st =
        ((s', ending), st'))
    (hOk : ending.isOk = true) :
    ∀ p ∈ pieces ++ piecesOf base chunks,
      st'.store.HasFile p.key
        (F.kept p.key
          ((Core.assemble
            (pieces ++ piecesOf base chunks)).contents
              p.key)) := by
  induction chunks generalizing pieces s st with
  | nil =>
      rw [List.map_nil, alone_run_nil h root hReceiving]
        at hRun
      cases hRun
      unfold piecesOf
      rw [List.map_nil, List.append_nil]
      exact hAssembled.files
  | cons chunk chunks ih =>
      rw [List.map_cons, alone_run_message h,
        Core.Prog.run_bind] at hRun
      unfold handleMessage at hRun
      simp only [Core.Prog.run_bind, Core.Prog.run_pure]
        at hRun
      generalize hChunk :
        Core.Prog.run (alone i oracle)
          (s.handleFileChunk chunk) st = handled at hRun
      rcases handled with ⟨⟨s₁, status⟩, st₁⟩
      simp only at hRun
      split at hRun
      · rename_i hStatus
        rcases
            assembled_handleFileChunk h hBase hReceiving
              hAssembled hChunk hStatus
          with ⟨hReceiving₁, hAssembled₁⟩
        have hRest := ih hReceiving₁ hAssembled₁ hRun
        rw [List.append_assoc] at hRest
        exact hRest
      · rename_i hFailed
        cases hRun
        exact absurd hOk hFailed

/- A config that is accepted leaves the files alone. -/
theorem handleConfig_ok
    (h : F.Governs oracle)
    {root : WorkspaceRoot}
    {config : TaskConfig}
    {st st' : ServerState}
    {s' : DownloadSession}
    {ending : Ending}
    (hRun :
      Core.Prog.run (alone i oracle)
          (init.handleConfig root config) st =
        ((s', ending), st'))
    (hOk : ending.isOk = true) :
    s'.Receiving (resolvedWorkspacePath root config) ∧
      s'.outfile = none ∧ st'.store = st.store := by
  unfold handleConfig at hRun
  simp only [init, Bool.false_eq_true, if_false] at hRun
  rw [Core.Prog.run_bind,
    alone_resolveTaskPaths h.status] at hRun
  by_cases hStays : staysInRoot root config = true
  · simp only [hStays, if_true] at hRun
    rw [Core.Prog.run_bind, Core.Prog.run_perform] at hRun
    split at hRun
    · cases hRun
      exact ⟨⟨rfl, rfl⟩, rfl, rfl⟩
    · rename_i hRefused
      cases hRun
      exact absurd hOk hRefused
  · simp only [hStays] at hRun
    cases hRun
    cases hOk

end DownloadSession

/-
  Every target has the data of its chunks from its last
  start on, in the order of the stream.
-/
def Reassembled
    (base : Path)
    (chunks : List TaskFileChunk)
    (store : Store) : Prop :=
  ∀ chunk ∈ chunks,
    store.HasFile
      (DownloadSession.targetPath base chunk).loc
      (Core.sinceStart
        (DownloadSession.targetPath base chunk).loc
        (piecesOf base chunks))

/-
  No file is cut off by a chunk that comes back to it, and
  closing it loses nothing.
-/
def Uncut
    (F : WriteFaults)
    (base : Path)
    (chunks : List TaskFileChunk)
    (l : Loc) : Prop :=
  ¬ Core.Severed l (piecesOf base chunks) ∧
    (F.lost l = 0 ∨
      Core.sinceStart l (piecesOf base chunks) = [])

/- What is left of a suffix is the whole only uncut. -/
theorem kept_eq_iff
    (F : WriteFaults)
    (base : Path)
    (chunks : List TaskFileChunk)
    (l : Loc) :
    F.kept l
        ((Core.assemble (piecesOf base chunks)).contents l) =
        Core.sinceStart l (piecesOf base chunks) ↔
      Uncut F base chunks l := by
  have hSuffix :=
    Core.assemble_suffix l (piecesOf base chunks)
  have hAgree :=
    Core.assemble_eq_iff l (piecesOf base chunks)
  have hLength := hSuffix.length_le
  unfold Uncut
  rw [← hAgree]
  unfold WriteFaults.kept
  constructor
  · intro hKept
    have hKeptLength := congrArg List.length hKept
    rw [List.length_take] at hKeptLength
    have hSame := hSuffix.eq_of_length (by omega)
    refine ⟨hSame, ?_⟩
    by_cases hLost : F.lost l = 0
    · exact Or.inl hLost
    · right
      apply List.length_eq_zero_iff.mp
      omega
  · rintro ⟨hSame, hLost | hNil⟩
    · rw [hLost, Nat.sub_zero, List.take_length, hSame]
    · rw [hSame, hNil, List.take_nil]

/-
  After an upload that succeeds, every file is reassembled
  if and only if every file is uncut.  The strings have no
  U+0000: two that differ after one open the same file.
-/
theorem reassembled_iff
    {F : WriteFaults}
    {oracle : ServerOracle}
    (h : F.Governs oracle)
    {i : Nat}
    {root : WorkspaceRoot}
    {config : TaskConfig}
    {chunks : List TaskFileChunk}
    (_hNul :
      NulFreeStream
        (.config config :: chunks.map TaskRequest.fileChunk))
    {st st' : ServerState}
    {s' : DownloadSession}
    {ending : Ending}
    (hRun :
      Core.Prog.run (alone i oracle)
          (DownloadSession.run root DownloadSession.init
            (.config config ::
              chunks.map TaskRequest.fileChunk))
          st =
        ((s', ending), st'))
    (hOk : ending.isOk = true) :
    Reassembled (resolvedWorkspacePath root config) chunks
        st'.store ↔
      ∀ chunk ∈ chunks,
        Uncut F (resolvedWorkspacePath root config) chunks
          (DownloadSession.targetPath
            (resolvedWorkspacePath root config) chunk).loc := by
  rw [DownloadSession.alone_run_message h,
    Core.Prog.run_bind] at hRun
  unfold DownloadSession.handleMessage at hRun
  simp only at hRun
  generalize hConfig :
    Core.Prog.run (alone i oracle)
      (DownloadSession.init.handleConfig root config) st =
        handled at hRun
  rcases handled with ⟨⟨s₁, ending₁⟩, st₁⟩
  simp only at hRun
  split at hRun
  · rename_i hAccepted
    rcases
        DownloadSession.handleConfig_ok h hConfig hAccepted
      with ⟨hReceiving, hNone, _⟩
    have hBase :
        (resolvedWorkspacePath root config).absolute =
          true :=
      (lexicallyNormalized_ordinary _ rfl).1
    have hFiles :=
      DownloadSession.assembled_run h root hBase chunks
        hReceiving
        (DownloadSession.assembled_nil hNone st₁.store)
        hRun hOk
    rw [List.nil_append] at hFiles
    unfold Reassembled
    apply forall₂_congr
    intro chunk hMem
    have hFile :=
      hFiles
        (pieceOf (resolvedWorkspacePath root config) chunk)
        (List.mem_map_of_mem hMem)
    rw [← kept_eq_iff]
    unfold Store.HasFile at hFile ⊢
    change st'.store.node
      (DownloadSession.targetPath
        (resolvedWorkspacePath root config) chunk).loc = _
      at hFile
    rw [hFile]
    constructor
    · intro hSame
      exact Node.file.inj (Option.some.inj hSame)
    · intro hSame
      exact congrArg (fun data => some (Node.file data)) hSame
  · rename_i hRejected
    cases hRun
    exact absurd hOk hRejected

/- A chunk of one byte, as a part of a file. -/
def partChunk
    (relativePath : String)
    (fileStart : Bool)
    (byte : UInt8) :
    TaskFileChunk :=
  { data := [byte]
    relativePath := relativePath.toList
    fileStart := fileStart
    fileEnd := false
    fileSize := 0 }

/- A stream of chunks on the empty small server. -/
def smallChunksRun (chunks : List TaskFileChunk) :
    (DownloadSession × Ending) × ServerState :=
  Core.Prog.run (alone 0 grantingOracle)
    (DownloadSession.run smallRoot DownloadSession.init
      (.config (smallConfig "a") ::
        chunks.map TaskRequest.fileChunk))
    (ServerState.init smallStore)

/- The workspace of the small stream. -/
def smallBase : Path :=
  resolvedWorkspacePath smallRoot (smallConfig "a")

/- One file after the other is reassembled. -/
theorem reassembled_inTurn :
    Reassembled smallBase
      [partChunk "f" true 1, partChunk "f" false 2,
        partChunk "g" true 3]
      (smallChunksRun
        [partChunk "f" true 1, partChunk "f" false 2,
          partChunk "g" true 3]).2.store := by
  have hOk :
      (smallChunksRun
        [partChunk "f" true 1, partChunk "f" false 2,
          partChunk "g" true 3]).1.2.isOk = true := by
    decide +kernel
  apply
    (reassembled_iff grantingOracle_governs (by decide) rfl
      hOk).mpr
  intro chunk hMem
  have hSame :
      (Core.assemble
          (piecesOf smallBase
            [partChunk "f" true 1, partChunk "f" false 2,
              partChunk "g" true 3])).contents
          (DownloadSession.targetPath smallBase chunk).loc =
        Core.sinceStart
          (DownloadSession.targetPath smallBase chunk).loc
          (piecesOf smallBase
            [partChunk "f" true 1, partChunk "f" false 2,
              partChunk "g" true 3]) := by
    simp only [List.mem_cons, List.not_mem_nil, or_false]
      at hMem
    rcases hMem with rfl | rfl | rfl
    · decide +kernel
    · decide +kernel
    · decide +kernel
  exact ⟨(Core.assemble_eq_iff _ _).mp hSame, Or.inl rfl⟩

/- A file that is left and come back to loses its start. -/
theorem interleaved_not_reassembled :
    WriteFaults.none.Governs grantingOracle ∧
      (smallChunksRun
        [partChunk "f" true 1, partChunk "g" true 2,
          partChunk "f" false 3]).1.2.isOk = true ∧
      ¬ Reassembled smallBase
        [partChunk "f" true 1, partChunk "g" true 2,
          partChunk "f" false 3]
        (smallChunksRun
          [partChunk "f" true 1, partChunk "g" true 2,
            partChunk "f" false 3]).2.store := by
  have hOk :
      (smallChunksRun
        [partChunk "f" true 1, partChunk "g" true 2,
          partChunk "f" false 3]).1.2.isOk = true := by
    decide +kernel
  refine ⟨grantingOracle_governs, hOk, ?_⟩
  intro hReassembled
  have hFile :=
    hReassembled (partChunk "f" true 1) List.mem_cons_self
  unfold Store.HasFile at hFile
  revert hFile
  decide +kernel

end Drex
