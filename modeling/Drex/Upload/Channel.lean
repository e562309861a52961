import Drex.Client.Stream
import Drex.Client.Verdict
import Drex.Core.Runs
import Drex.Server.Protocol.Parts

/-
  One call of `TaskSubmission`: the client, the server and
  the stream between them, which can break at any time.

  A message that is written is read in order.  A broken call
  delivers neither a message nor the end of the stream; a
  read that ends because the call broke finds it cancelled.

  Key definitions include:
    * `Call`
    * `Call.step`
    * `StreamedAll`
    * `Call.Sound`

  Key theorems include:
    * `wp_writing`
    * `wp_taskSubmit`
    * `wp_taskSubmission_cleared`
    * `Call.Sound.step`
    * `command_on_complete_upload`
-/

------------------------------------------------------------
-- The Call
------------------------------------------------------------

namespace Drex

/-
  Both programs, the messages the stream took and those not
  yet read, and how the stream ends.  The last two fields
  record that the server's `Read` has returned false, and
  that it found the call not cancelled afterwards.
-/
structure Call where
  client : ClientProg Status
  server : ServerProg Status
  written : List TaskRequest
  unread : List TaskRequest
  halfClosed : Bool
  broken : Bool
  noticed : Bool
  ended : Bool
  cleared : Bool

/-
  Who moves next.  What the stream does not decide is
  answered by the label.
-/
inductive CallLabel
| client (answer : (op : ClientOp) → ClientResp op)
| server (answer : (op : ServerOp) → Resp op)
| breaks
| notices

namespace Call

/- The call before either side has moved. -/
def start
    (client : ClientProg Status)
    (server : ServerProg Status) :
    Call :=
  { client := client
    server := server
    written := []
    unread := []
    halfClosed := false
    broken := false
    noticed := false
    ended := false
    cleared := false }

/- The client's next operation. -/
def stepClient
    (s : Call)
    (answer : (op : ClientOp) → ClientResp op) :
    Option Call :=
  match s.client with
  | .ret _ => none
  | .call (.write request) next =>
      if s.broken then
        some
          { s with client := next (answer (.write request)) }
      else
        some
          { s with
            client := next true
            written := s.written ++ [request]
            unread := s.unread ++ [request] }
  | .call .writesDone next =>
      some
        { s with
          client := next ()
          halfClosed := s.halfClosed || !s.broken }
  | .call op next =>
      some { s with client := next (answer op) }

/- The server's next operation, if it can be answered. -/
def stepServer
    (s : Call)
    (answer : (op : ServerOp) → Resp op) :
    Option Call :=
  match s.server with
  | .ret _ => none
  | .call (.read (some request)) next =>
      match s.unread with
      | [] => none
      | first :: rest =>
          if first = request then
            some { s with server := next (), unread := rest }
          else
            none
  | .call (.read none) next =>
      if s.noticed ∨ (s.unread = [] ∧ s.halfClosed) then
        some { s with server := next (), ended := true }
      else
        none
  | .call .isCancelled next =>
      some
        { s with
          server := next s.noticed
          cleared := s.cleared || (s.ended && !s.noticed) }
  | .call op next =>
      some { s with server := next (answer op) }

/- One step of the call. -/
def step (s : Call) : CallLabel → Option Call
| .client answer => s.stepClient answer
| .server answer => s.stepServer answer
| .breaks => some { s with broken := true }
| .notices =>
    if s.broken then
      some { s with noticed := true }
    else
      none

/- The server is about to start the command. -/
def startsCommand (s : Call) : Bool :=
  match s.server with
  | .call .fork _ => true
  | .call .forkpty _ => true
  | _ => false

end Call

/-
  The client streamed all of its files: each was opened, and
  the stream took the config and, in order, the chunks of
  everything that was read of the files.
-/
def StreamedAll
    (disk : LocalDisk)
    (files : List UploadFileSpec)
    (written : List TaskRequest) : Prop :=
  (∀ file ∈ files, (disk file.localPath).opens = true) ∧
    ∃ config messages,
      written = .config config :: messages ∧
        FilesMessages disk files messages

end Drex

------------------------------------------------------------
-- The Client
------------------------------------------------------------

namespace Drex

open Drex.Core.Prog

/-
  What the stream has taken from the client and whether the
  client has half-closed it, unless the call is broken.
-/
abbrev WriterView :=
  Option (List TaskRequest × Bool)

/- An unbroken stream takes every message. -/
def writerAnswers : Answers ClientOp ClientResp WriterView :=
  fun g op r g' =>
    match g with
    | none => g' = none
    | some (written, closed) =>
        match op, r with
        | .write request, sent =>
            sent = true ∧
              g' = some (written ++ [request], closed)
        | .writesDone, _ => g' = some (written, true)
        | _, _ => g' = g

/- An unbroken stream is half-closed once it is complete. -/
def writerPre
    (Complete : List TaskRequest → Prop)
    (g : WriterView)
    (op : ClientOp) : Prop :=
  match g with
  | none => True
  | some (written, closed) =>
      match op with
      | .write _ => closed = false
      | .writesDone => Complete written
      | _ => True

/- A broken call can be used in any way. -/
theorem wp_broken
    {α : Type}
    {Complete : List TaskRequest → Prop}
    {Q : α → WriterView → Prop}
    (p : ClientProg α)
    (hQ : ∀ a, Q a none) :
    wp writerAnswers (writerPre Complete) p Q none := by
  induction p with
  | ret a => exact hQ a
  | call op next ih =>
      refine ⟨trivial, ?_⟩
      intro r g' hAnswer
      rw [show g' = none from hAnswer]
      exact ih r

/- The operations of the upload itself. -/
def ClientOp.Writes : ClientOp → Prop
| .write _ => True
| _ => False

/- What an unbroken stream takes is what would be sent. -/
theorem wp_writing
    {α : Type}
    {Complete : List TaskRequest → Prop}
    {p : ClientProg α}
    (hWrites : OnlyCalls ClientOp.Writes p)
    (written : List TaskRequest) :
    wp writerAnswers (writerPre Complete) p
      (fun a g =>
        a = (run sending p written).1 ∧
          g = some ((run sending p written).2, false))
      (some (written, false)) := by
  induction p generalizing written with
  | ret a => exact ⟨rfl, rfl⟩
  | call op next ih =>
      rcases hWrites with ⟨hOp, hNext⟩
      cases op with
      | write request =>
          refine ⟨rfl, ?_⟩
          rintro sent g' ⟨hSent, hView⟩
          rw [hSent, hView]
          exact ih true (hNext true) (written ++ [request])
      | writesDone => exact hOp.elim
      | drainServerResponses => exact hOp.elim
      | finish => exact hOp.elim

theorem onlyCalls_streamChunks
    (f : LocalFile)
    (relativePath : Str)
    (offset : Nat)
    (firstChunk : Bool) :
    OnlyCalls ClientOp.Writes
      (streamChunks f relativePath offset firstChunk) := by
  induction hMeasure : f.data.length - offset
    using Nat.strong_induction_on
    generalizing offset firstChunk with
  | _ measure ih =>
      generalize hRead : f.read offset kChunkSize = state
      by_cases hNil : state.bytes = []
      · rw [streamChunks_done relativePath firstChunk
          (by rw [hRead]; exact hNil)]
        exact onlyCalls_pure _
      · rw [streamChunks_send relativePath firstChunk
          hRead hNil]
        have hProgress :
            offset < f.data.length ∧
              0 < (f.read offset kChunkSize).bytes.length := by
          apply LocalFile.read_progress
          rw [hRead]
          exact hNil
        rw [hRead] at hProgress
        apply onlyCalls_call trivial
        intro sent
        apply onlyCalls_ite
        · exact fun _ => onlyCalls_pure _
        · intro _
          apply onlyCalls_ite
          · intro _
            exact
              ih (f.data.length -
                  (offset + state.bytes.length))
                (by omega) _ _ rfl
          · exact fun _ => onlyCalls_pure _

theorem onlyCalls_streamWorkspaceFiles
    (disk : LocalDisk)
    (files : List UploadFileSpec) :
    OnlyCalls ClientOp.Writes
      (streamWorkspaceFiles disk files) := by
  induction files with
  | nil => exact onlyCalls_pure _
  | cons file files ih =>
      have hFile :
          OnlyCalls ClientOp.Writes (streamFile disk file) := by
        unfold streamFile
        apply onlyCalls_ite
        · exact fun _ => onlyCalls_streamChunks _ _ _ _
        · exact fun _ => onlyCalls_pure _
      apply onlyCalls_bind hFile
      intro status
      apply onlyCalls_ite
      · exact fun _ => ih
      · exact fun _ => onlyCalls_pure _

/-
  If every file opens, the client half-closes an unbroken
  stream only after it has taken everything.
-/
theorem wp_taskSubmit
    (disk : LocalDisk)
    (files : List UploadFileSpec)
    (workspaceSubdir command : Str)
    (enablePty : Bool)
    (xschedConfig : Option XSchedConfig)
    (hOpens :
      ∀ file ∈ files, (disk file.localPath).opens = true) :
    wp writerAnswers (writerPre (StreamedAll disk files))
      (taskSubmit disk files workspaceSubdir command
        enablePty xschedConfig)
      (fun _ _ => True) (some ([], false)) := by
  unfold taskSubmit sendTaskConfig
  by_cases hFiles : files = []
  · rw [if_pos hFiles]
    trivial
  · rw [if_neg hFiles]
    by_cases hCommand : command = []
    · rw [if_pos hCommand]
      trivial
    · rw [if_neg hCommand]
      refine ⟨rfl, ?_⟩
      rintro sent g' ⟨hSent, hView⟩
      rw [hSent, hView]
      change wp writerAnswers _
        (streamWorkspaceFiles disk files >>= _) _ _
      rw [wp_bind]
      rcases run_streamWorkspaceFiles disk files hOpens with
        ⟨messages, hMessages, hRun⟩
      refine wp_mono ?_
        (wp_writing
          (onlyCalls_streamWorkspaceFiles disk files) _)
      rintro status g ⟨_, hTaken⟩
      rw [hTaken, hRun]
      refine ⟨⟨hOpens, _, messages, rfl, hMessages⟩, ?_⟩
      rintro _ g₁ hDone
      rw [show g₁ = _ from hDone]
      refine ⟨trivial, ?_⟩
      rintro finalResult g₂ hDrained
      rw [show g₂ = _ from hDrained]
      refine ⟨trivial, ?_⟩
      rintro final g₃ _
      trivial

end Drex

------------------------------------------------------------
-- The Server
------------------------------------------------------------

namespace Drex

open Drex.Core.Prog

/- How far the server has found the stream to be over. -/
structure ReaderView where
  ended : Bool
  cleared : Bool
deriving DecidableEq

/- The view after an answered operation. -/
def ReaderView.after
    (g : ReaderView)
    (op : ServerOp)
    (r : Resp op) :
    ReaderView :=
  match op, r with
  | .read none, _ => { g with ended := true }
  | .isCancelled, cancelled =>
      { g with
        cleared := g.cleared || (g.ended && !cancelled) }
  | _, _ => g

def readerAnswers : Answers ServerOp Resp ReaderView :=
  fun g op r g' => g' = g.after op r

/- The operations that do not start the command. -/
def ServerOp.StartsNothing : ServerOp → Prop
| .fork => False
| .forkpty => False
| _ => True

/- The command is started after the stream is cleared. -/
def readerPre (g : ReaderView) (op : ServerOp) : Prop :=
  op.StartsNothing ∨ g.cleared = true

theorem ReaderView.cleared_after
    {g : ReaderView}
    (h : g.cleared = true)
    (op : ServerOp)
    (r : Resp op) :
    (g.after op r).cleared = true := by
  cases op with
  | read next =>
      cases next with
      | none => exact h
      | some request => exact h
  | isCancelled => simp [ReaderView.after, h]
  | _ => exact h

/- After a cleared stream anything may follow. -/
theorem wp_cleared
    {α : Type}
    (p : ServerProg α)
    {g : ReaderView}
    (h : g.cleared = true) :
    wp readerAnswers readerPre p
      (fun _ g' => g'.cleared = true) g := by
  induction p generalizing g with
  | ret a => exact h
  | call op next ih =>
      refine ⟨Or.inr h, ?_⟩
      rintro r g' rfl
      exact ih r (ReaderView.cleared_after h op r)

/- What starts no command may be done at any time. -/
theorem wp_startsNothing
    {α : Type}
    {p : ServerProg α}
    (hOnly : OnlyCalls ServerOp.StartsNothing p)
    (g : ReaderView) :
    wp readerAnswers readerPre p (fun _ _ => True) g := by
  induction p generalizing g with
  | ret a => trivial
  | call op next ih =>
      refine ⟨Or.inl hOnly.1, ?_⟩
      intro r g' _
      exact ih r (hOnly.2 r) g'

theorem transfers_startsNothing
    (op : ServerOp)
    (hOp : op.Transfers) :
    op.StartsNothing := by
  cases op <;> first | exact trivial | exact hOp.elim

/- `Run` succeeds only on a stream it found cleared. -/
theorem wp_run_cleared
    (root : WorkspaceRoot)
    (s : DownloadSession)
    (messages : List TaskRequest)
    (g : ReaderView) :
    wp readerAnswers readerPre
      (DownloadSession.run root s messages)
      (fun r g' => r.2.isOk = true → g'.cleared = true)
      g := by
  induction messages generalizing s g with
  | nil =>
      refine ⟨Or.inl trivial, ?_⟩
      rintro _ g₁ rfl
      refine ⟨Or.inl trivial, ?_⟩
      rintro cancelled g₂ rfl
      cases cancelled with
      | true =>
          intro hOk
          cases hOk
      | false =>
          have hCleared :
              (({ g with ended := true } : ReaderView).after
                .isCancelled false).cleared = true := by
            simp [ReaderView.after]
          refine wp_mono ?_ (wp_cleared _ hCleared)
          intro _ g' hClear _
          exact hClear
  | cons message messages ih =>
      refine ⟨Or.inl trivial, ?_⟩
      rintro _ g₁ rfl
      refine ⟨Or.inl trivial, ?_⟩
      rintro cancelled g₂ rfl
      cases cancelled with
      | true =>
          intro hOk
          cases hOk
      | false =>
          change wp readerAnswers readerPre
            (s.handleMessage root message >>= _) _ _
          rw [wp_bind]
          have hOnly :=
            onlyCalls_mono transfers_startsNothing
              (s.onlyCalls_handleMessage root message)
          refine wp_mono ?_ (wp_startsNothing hOnly _)
          rintro ⟨s', ending⟩ g' _
          by_cases hOk : ending.isOk = true
          · simp only [hOk, if_true]
            exact ih s' g'
          · simp only [hOk]
            intro hEnding
            exact absurd hEnding hOk

theorem wp_downloadWorkspace_cleared
    (root : WorkspaceRoot)
    (messages : List TaskRequest)
    (g : ReaderView) :
    wp readerAnswers readerPre
      (downloadWorkspace root messages)
      (fun r g' => r.2.isOk = true → g'.cleared = true)
      g := by
  unfold downloadWorkspace
  rw [wp_bind]
  refine wp_mono ?_ (wp_run_cleared root _ messages g)
  rintro ⟨s, ending⟩ g₁ hCleared
  change wp readerAnswers readerPre
    (s.closeCurrentFile >>= _) _ _
  rw [wp_bind]
  by_cases hOk : ending.isOk = true
  · refine wp_mono ?_ (wp_cleared _ (hCleared hOk))
    intro s' g₂ hClear _
    exact hClear
  · have hOnly :=
      onlyCalls_mono transfers_startsNothing
        (onlyCalls_mono transfers_of_writesFile
          s.onlyCalls_closeCurrentFile)
    refine wp_mono ?_ (wp_startsNothing hOnly g₁)
    intro s' g₂ _ hEnding
    exact absurd hEnding hOk

theorem wp_submissionBody_cleared
    (root : WorkspaceRoot)
    (messages : List TaskRequest)
    (g : ReaderView) :
    wp readerAnswers readerPre (submissionBody root messages)
      (fun _ _ => True) g := by
  unfold submissionBody finishSubmission
  rw [wp_bind]
  refine wp_mono ?_
    (wp_downloadWorkspace_cleared root messages g)
  rintro ⟨config, ending⟩ g₁ hCleared
  by_cases hOk : ending.isOk = true
  · simp only [hOk, if_true]
    exact
      wp_mono (fun _ _ _ => trivial)
        (wp_cleared _ (hCleared hOk))
  · simp only [hOk]
    exact
      wp_startsNothing
        (onlyCalls_failSubmission (fun _ => trivial) ending)
        g₁

/- A submission starts its command on a cleared stream. -/
theorem wp_taskSubmission_cleared
    (root : WorkspaceRoot)
    (messages : List TaskRequest)
    (g : ReaderView) :
    wp readerAnswers readerPre (taskSubmission root messages)
      (fun _ _ => True) g := by
  have hGuard :
      OnlyCalls ServerOp.StartsNothing (destroyGuard root) := by
    refine onlyCalls_mono ?_ (onlyCalls_destroyGuard root)
    intro op hOp
    cases op <;> first | exact trivial | exact hOp.elim
  unfold taskSubmission
  refine ⟨Or.inl trivial, ?_⟩
  intro rootError g₁ _
  cases rootError with
  | some message =>
      refine ⟨Or.inl trivial, ?_⟩
      intro _ g₂ _
      trivial
  | none =>
      change wp readerAnswers readerPre
        (submissionBody root messages >>= _) _ _
      rw [wp_bind]
      refine wp_mono ?_
        (wp_submissionBody_cleared root messages g₁)
      intro status g₂ _
      rw [wp_bind]
      refine wp_mono ?_ (wp_startsNothing hGuard g₂)
      intro _ g₃ _
      trivial

end Drex

------------------------------------------------------------
-- Both Sides
------------------------------------------------------------

namespace Drex

open Drex.Core.Prog

namespace Call

/- What the client sees of the stream. -/
def writerView (s : Call) : WriterView :=
  if s.broken then none else some (s.written, s.halfClosed)

/- What the server has seen of the stream. -/
def readerView (s : Call) : ReaderView :=
  ⟨s.ended, s.cleared⟩

/-
  A half-closed stream is complete, and a stream the server
  has found to be over is half-closed and read to its end.
-/
structure Sound
    (Complete : List TaskRequest → Prop)
    (s : Call) : Prop where
  client :
    wp writerAnswers (writerPre Complete) s.client
      (fun _ _ => True) s.writerView
  server :
    wp readerAnswers readerPre s.server
      (fun _ _ => True) s.readerView
  closed : s.halfClosed = true → Complete s.written
  ended :
    s.ended = true →
      s.noticed = true ∨
        (s.unread = [] ∧ s.halfClosed = true)
  cleared :
    s.cleared = true →
      s.unread = [] ∧ s.halfClosed = true

variable {Complete : List TaskRequest → Prop}
variable {s s' : Call}

theorem Sound.stepClient
    {answer : (op : ClientOp) → ClientResp op}
    (h : s.Sound Complete)
    (hStep : s.stepClient answer = some s') :
    s'.Sound Complete := by
  have hClient := h.client
  unfold Call.stepClient at hStep
  rcases s with ⟨client, server, written, unread, halfClosed,
    broken, noticed, ended, cleared⟩
  cases client with
  | ret status => cases hStep
  | call op next =>
      cases broken with
      | true =>
          have hNext :
              ∀ r, wp writerAnswers (writerPre Complete)
                (next r) (fun _ _ => True) none :=
            fun r => wp_broken (next r) (fun _ => trivial)
          cases op with
          | writesDone =>
              simp only [Bool.not_true, Bool.or_false,
                Option.some.injEq] at hStep
              subst hStep
              exact { h with client := hNext () }
          | write request =>
              simp only [if_true, Option.some.injEq] at hStep
              subst hStep
              exact { h with client := hNext _ }
          | drainServerResponses =>
              simp only [Option.some.injEq] at hStep
              subst hStep
              exact { h with client := hNext _ }
          | finish =>
              simp only [Option.some.injEq] at hStep
              subst hStep
              exact { h with client := hNext _ }
      | false =>
          cases op with
          | write request =>
              simp only [Bool.false_eq_true, if_false,
                Option.some.injEq] at hStep
              subst hStep
              have hOpen : halfClosed = false := hClient.1
              subst hOpen
              exact
                { client := hClient.2 true _ ⟨rfl, rfl⟩
                  server := h.server
                  closed := fun hClosed => by cases hClosed
                  ended := fun hEnded =>
                    Or.inl
                      ((h.ended hEnded).resolve_right
                        (fun hOver => by cases hOver.2))
                  cleared := fun hCleared => by
                    cases (h.cleared hCleared).2 }
          | writesDone =>
              simp only [Bool.not_false, Bool.or_true,
                Option.some.injEq] at hStep
              subst hStep
              exact
                { client := hClient.2 () _ rfl
                  server := h.server
                  closed := fun _ => hClient.1
                  ended := fun hEnded =>
                    (h.ended hEnded).imp id
                      (fun hOver => ⟨hOver.1, rfl⟩)
                  cleared := fun hCleared =>
                    ⟨(h.cleared hCleared).1, rfl⟩ }
          | drainServerResponses =>
              simp only [Option.some.injEq] at hStep
              subst hStep
              exact { h with client := hClient.2 _ _ rfl }
          | finish =>
              simp only [Option.some.injEq] at hStep
              subst hStep
              exact { h with client := hClient.2 _ _ rfl }

theorem Sound.stepServer
    {answer : (op : ServerOp) → Resp op}
    (h : s.Sound Complete)
    (hStep : s.stepServer answer = some s') :
    s'.Sound Complete := by
  have hServer := h.server
  unfold Call.stepServer at hStep
  rcases s with ⟨client, server, written, unread, halfClosed,
    broken, noticed, ended, cleared⟩
  cases server with
  | ret status => cases hStep
  | call op next =>
      cases op with
      | read request? =>
          cases request? with
          | some request =>
              cases unread with
              | nil => cases hStep
              | cons first rest =>
                  simp only [Option.ite_none_right_eq_some,
                    Option.some.injEq] at hStep
                  rcases hStep with ⟨_, rfl⟩
                  exact
                    { client := h.client
                      server := hServer.2 () _ rfl
                      closed := h.closed
                      ended := fun hEnded =>
                        (h.ended hEnded).imp id
                          (fun hOver => by cases hOver.1)
                      cleared := fun hCleared => by
                        cases (h.cleared hCleared).1 }
          | none =>
              simp only [Option.ite_none_right_eq_some,
                Option.some.injEq] at hStep
              rcases hStep with ⟨hEnd, rfl⟩
              exact
                { client := h.client
                  server := hServer.2 () _ rfl
                  closed := h.closed
                  ended := fun _ => hEnd
                  cleared := h.cleared }
      | isCancelled =>
          simp only [Option.some.injEq] at hStep
          subst hStep
          refine
            { client := h.client
              server := hServer.2 noticed _ rfl
              closed := h.closed
              ended := h.ended
              cleared := ?_ }
          intro hCleared
          cases cleared with
          | true => exact h.cleared rfl
          | false =>
              -- The end was read and the call is intact.
              simp only [Bool.false_or,
                Bool.and_eq_true] at hCleared
              apply (h.ended hCleared.1).resolve_left
              intro hNoticed
              have hIntact := hCleared.2
              simp only [] at hNoticed
              rw [hNoticed] at hIntact
              cases hIntact
      | _ =>
          simp only [Option.some.injEq] at hStep
          subst hStep
          exact { h with server := hServer.2 _ _ rfl }

/- Every step keeps the call sound. -/
theorem Sound.step
    {label : CallLabel}
    (h : s.Sound Complete)
    (hStep : s.step label = some s') :
    s'.Sound Complete := by
  cases label with
  | client answer => exact h.stepClient hStep
  | server answer => exact h.stepServer hStep
  | breaks =>
      cases hStep
      exact
        { h with
          client := wp_broken s.client (fun _ => trivial) }
  | notices =>
      simp only [Call.step, Option.ite_none_right_eq_some,
        Option.some.injEq] at hStep
      rcases hStep with ⟨_, rfl⟩
      exact
        { h with
          ended := fun _ => Or.inl rfl }

end Call

/-
  If every listed file opens, a server that is about to
  start the command has read all that the client streams,
  wherever a `Write` fails and whenever the call breaks.
-/
theorem command_on_complete_upload
    (root : WorkspaceRoot)
    (messages : List TaskRequest)
    (disk : LocalDisk)
    (files : List UploadFileSpec)
    (workspaceSubdir command : Str)
    (enablePty : Bool)
    (xschedConfig : Option XSchedConfig)
    (hOpens :
      ∀ file ∈ files, (disk file.localPath).opens = true)
    {s : Call}
    (hReach :
      Core.Reaches Call.step
        (Call.start
          (taskSubmit disk files workspaceSubdir command
            enablePty xschedConfig)
          (taskSubmission root messages))
        s)
    (hCommand : s.startsCommand = true) :
    StreamedAll disk files s.written ∧ s.unread = [] := by
  have hSound : s.Sound (StreamedAll disk files) := by
    refine
      Core.Reaches.invariant ?_
        (fun _ _ _ hSound hStep => hSound.step hStep) hReach
    exact
      { client :=
          wp_taskSubmit disk files workspaceSubdir command
            enablePty xschedConfig hOpens
        server := wp_taskSubmission_cleared root messages _
        closed := fun h => by cases h
        ended := fun h => by cases h
        cleared := fun h => by cases h }
  have hCleared : s.cleared = true := by
    have hServer := hSound.server
    unfold Call.startsCommand at hCommand
    split at hCommand
    · rename_i next hNext
      rw [hNext] at hServer
      exact hServer.1.resolve_left id
    · rename_i next hNext
      rw [hNext] at hServer
      exact hServer.1.resolve_left id
    · cases hCommand
  rcases hSound.cleared hCleared with ⟨hRead, hClosed⟩
  exact ⟨hSound.closed hClosed, hRead⟩

/- The client's calls all succeed. -/
def grantingClient : (op : ClientOp) → ClientResp op
| .write _ => true
| .writesDone => ()
| .drainServerResponses => .init
| .finish => Status.success

/- A call that uploads one file of one byte. -/
def oneFileCall
    (opens : Bool)
    (messages : List TaskRequest) :
    Call :=
  Call.start
    (taskSubmit (fun _ => ⟨opens, some 1, [65], none⟩)
      [⟨"f".toList, "f".toList⟩] "job".toList
      "true".toList false none)
    (taskSubmission smallRoot messages)

/- The config of that call. -/
def oneFileConfig : TaskRequest :=
  .config
    (taskConfigOf "job".toList "true".toList
      "job/output".toList false none)

/- The client's steps, then those of the server. -/
def callLabels (clientSteps serverSteps : Nat) :
    List CallLabel :=
  List.replicate clientSteps (.client grantingClient) ++
    List.replicate serverSteps (.server Env.granting.answer)

/- The file is streamed, and the command is started. -/
theorem command_on_complete_upload_oneFile :
    ∃ s,
      Core.Reaches Call.step
          (oneFileCall true
            [oneFileConfig, .fileChunk (smallChunk "f")]) s ∧
        s.startsCommand = true ∧
          StreamedAll (fun _ => ⟨true, some 1, [65], none⟩)
              [⟨"f".toList, "f".toList⟩] s.written ∧
            s.unread = [] := by
  have hRun :
      (Core.runLabels Call.step (callLabels 3 23)
          (oneFileCall true
            [oneFileConfig,
              .fileChunk (smallChunk "f")])).any
        Call.startsCommand = true := by
    decide +kernel
  rcases Core.reaches_of_any hRun with
    ⟨s, hReach, hCommand⟩
  exact
    ⟨s, hReach, hCommand,
      command_on_complete_upload smallRoot _ _ _ _ _ _ _
        (fun _ _ => rfl) hReach hCommand⟩

/-
  The only file cannot be opened; the client half-closes the
  stream, and the server starts the command.
-/
theorem unopenedFile_command_starts :
    ¬ ∀ (root : WorkspaceRoot) (messages : List TaskRequest)
      (disk : LocalDisk) (files : List UploadFileSpec)
      (workspaceSubdir command : Str) (enablePty : Bool)
      (xschedConfig : Option XSchedConfig) (s : Call),
      Core.Reaches Call.step
          (Call.start
            (taskSubmit disk files workspaceSubdir command
              enablePty xschedConfig)
            (taskSubmission root messages))
          s →
        s.startsCommand = true →
          StreamedAll disk files s.written := by
  intro hComplete
  have hRun :
      (Core.runLabels Call.step (callLabels 2 17)
          (oneFileCall false [oneFileConfig])).any
        Call.startsCommand = true := by
    decide +kernel
  rcases Core.reaches_of_any hRun with
    ⟨s, hReach, hCommand⟩
  have hStreamed := hComplete _ _ _ _ _ _ _ _ s hReach hCommand
  have hOpens := hStreamed.1 _ List.mem_cons_self
  cases hOpens

end Drex
