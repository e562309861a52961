import Drex.Application.TokenLoop
import Drex.Server.Handing
import Drex.Server.StoresAgree

/-
  A benchmark with tokens as the task whose utilization the
  server updates.

  The server and the benchmark share the utilization file
  and nothing else, and their steps interleave in any way.
  A turn of `Acquire` that refills reads what the file has
  at that step.

  Key definitions include:
    * `Heeds`
    * `UpdatedTask.text`
    * `Served`
    * `UpdatedTask.FileSound`

  Key theorems include:
    * `Heeds.step`
    * `hint_bounds_report`
    * `UpdatedTask.FileSound.step`
    * `throttle_reads_written`
-/

------------------------------------------------------------
-- Heeding A Utilization
------------------------------------------------------------

namespace Drex

/- A turn of `Acquire` that reads the file reads this. -/
def TokenEvent.Sees (text : Option Str) : TokenEvent → Prop
| .turn _ _ seen => seen = text
| _ => True

/-
  By its printed end and its length, the window of a row
  began at a time or later.
-/
def WindowRow.BeginsFrom
    (row : WindowRow)
    (benchmarkStart time : Int) : Prop :=
  time + row.windowNs ≤
    benchmarkStart + row.elapsedMs * 1000000

/-
  Refills after a time go by one utilization, and so do the
  rows of windows that begin a window of the throttle later.
-/
structure Heeds
    (settings : ThrottleSettings)
    (since utilization : Int)
    (s : TokenLoop) : Prop where
  values :
    ∀ r older, r :: older <:+ s.throttle.refills →
      since < r.time →
        lastRead settings (r :: older) = utilization
  rows :
    ∀ row ∈ s.loop.rows,
      row.BeginsFrom s.loop.benchmarkStart
          (since + settings.windowNs) →
        (row.iterations : Int) ≤
          (row.windowNs / settings.windowNs + 2) *
            max 1 (utilization * settings.quotaUnit)

/- No refill is of the future. -/
theorem TokenSound.time_le
    {cfg : LoopConfig}
    {settings : ThrottleSettings}
    {s : TokenLoop}
    (h : TokenSound cfg settings s)
    {r : Refilled}
    (hMem : r ∈ s.throttle.refills) :
    r.time ≤ s.loop.clock := by
  have hWidth := settings.windowNs_pos
  have hLatest := h.latest
  have hApart := h.throttle.apart
  cases hRefills : s.throttle.refills with
  | nil =>
      rw [hRefills] at hMem
      cases hMem
  | cons first older =>
      rw [hRefills] at hMem hLatest hApart
      have hFirst := hLatest first rfl
      have hPairs :
          (first :: older).Pairwise
            (fun later earlier =>
              earlier.time ≤ later.time) :=
        (hApart.imp fun _ _ hStep => by omega).pairwise
      rcases List.mem_cons.mp hMem with rfl | hOld
      · exact hFirst
      · have hOlder := List.rel_of_pairwise_cons hPairs hOld
        omega

namespace Heeds

variable {cfg : LoopConfig}
variable {settings : ThrottleSettings}
variable {since utilization : Int}
variable {s s' : TokenLoop}

/- At the time itself there is nothing to heed. -/
theorem start
    (h : TokenSound cfg settings s) :
    Heeds settings s.loop.clock utilization s := by
  have hWidth := settings.windowNs_pos
  constructor
  · intro r older hSuffix hLate
    have hTime :=
      h.time_le (hSuffix.subset List.mem_cons_self)
    omega
  · intro row hRow hBegins
    have hLatest := h.report.latest row hRow
    have hWindow := (h.rows row hRow).window
    unfold WindowRow.BeginsFrom at hBegins
    omega

/- What a window that began late enough was granted. -/
theorem granted_le
    (h : Heeds settings since utilization s)
    (hSound : TokenSound cfg settings s)
    (hInside : s.loop.pc.inside = true)
    (hBegan :
      since + settings.windowNs ≤ s.loop.windowStart)
    {now : Int}
    (hClock : s.loop.clock ≤ now) :
    (s.loop.count : Int) ≤
      ((now - s.loop.windowStart) / settings.windowNs + 2) *
        max 1 (utilization * settings.quotaUnit) := by
  have hWidth := settings.windowNs_pos
  have hGranted := hSound.granted hInside
  have hStarted := hSound.report.started hInside
  have hPeak :
      (0 : Int) ≤
        max 1 (utilization * settings.quotaUnit) :=
    Int.le_trans (by decide) (le_max_left _ _)
  have hEach :
      ∀ r ∈ s.throttle.refills,
        s.loop.windowStart < r.time + settings.windowNs →
          (r.granted : Int) ≤
            max 1 (utilization * settings.quotaUnit) := by
    intro r hMem hMeets
    rcases List.append_of_mem hMem with
      ⟨newer, older, hRefills⟩
    have hSuffix : r :: older <:+ s.throttle.refills :=
      ⟨newer, hRefills.symm⟩
    have hValue := h.values r older hSuffix (by omega)
    have hHere := hSound.throttle.within r older hSuffix
    unfold allowance at hHere
    rw [hValue] at hHere
    exact hHere
  have hSince :=
    grantedSince_le hWidth hPeak hSound.throttle.apart hEach
      (by omega : s.loop.windowStart ≤ now + settings.windowNs)
      (fun r hHead =>
        Int.le_trans (hSound.latest r hHead) hClock)
  omega

end Heeds

end Drex

------------------------------------------------------------
-- One Step Of The Benchmark
------------------------------------------------------------

namespace Drex

/- No step moves the start of the benchmark. -/
theorem LoopState.advance_benchmarkStart
    {cfg : LoopConfig}
    {l l' : LoopState}
    {now : Int}
    (h : l.advance cfg now = some l') :
    l'.benchmarkStart = l.benchmarkStart := by
  cases LoopState.advance_move h with
  | head =>
      unfold enterWindow
      split <;> rfl
  | turn =>
      unfold enterTurn
      split <;> rfl
  | gate =>
      unfold leaveGate
      split <;> rfl
  | opening | begin | infer | check | close | closing => rfl

/- Only the end of a window adds a row. -/
theorem LoopState.advance_rows
    {cfg : LoopConfig}
    {l l' : LoopState}
    {now : Int}
    (h : l.advance cfg now = some l') :
    l'.rows = l.rows ∨
      (l.pc = .close ∧ l.clock ≤ now ∧
        l'.rows = l.rowAt now :: l.rows) := by
  cases LoopState.advance_move h with
  | head =>
      unfold enterWindow
      split <;> exact Or.inl rfl
  | turn =>
      unfold enterTurn
      split <;> exact Or.inl rfl
  | gate =>
      unfold leaveGate
      split <;> exact Or.inl rfl
  | close hPc hClock => exact Or.inr ⟨hPc, hClock, rfl⟩
  | opening | begin | infer | check | closing =>
      exact Or.inl rfl

namespace Heeds

variable {cfg : LoopConfig}
variable {settings : ThrottleSettings}
variable {since utilization : Int}
variable {s s' : TokenLoop}

/- A step of the loop away from its call of `Acquire`. -/
theorem work
    (h : Heeds settings since utilization s)
    (hSound : TokenSound cfg settings s)
    {now : Int}
    (hStep : s.work cfg now = some s') :
    Heeds settings since utilization s' := by
  rcases Option.map_eq_some_iff.mp hStep with
    ⟨loop, hLoop, rfl⟩
  have hStart := LoopState.advance_benchmarkStart hLoop
  refine ⟨h.values, fun row hRow hBegins => ?_⟩
  dsimp only at hRow hBegins
  rw [hStart] at hBegins
  rcases LoopState.advance_rows hLoop with
    hSame | ⟨hPc, hClock, hNew⟩
  · rw [hSame] at hRow
    exact h.rows row hRow hBegins
  · rw [hNew] at hRow
    rcases List.mem_cons.mp hRow with rfl | hOld
    · have hBegan :
          since + settings.windowNs ≤
            s.loop.windowStart := by
        unfold WindowRow.BeginsFrom LoopState.rowAt
          at hBegins
        dsimp only at hBegins
        omega
      have hInside : s.loop.pc.inside = true := by
        rw [hPc]
        rfl
      exact h.granted_le hSound hInside hBegan hClock
    · exact h.rows row hOld hBegins

/- A refill goes by what it reads, if that can be read. -/
theorem lastRead_of_read
    {r : Refilled}
    {older : List Refilled}
    {text rest : Str}
    (hFile : settings.utilizationFile ≠ [])
    (hSeen : r.seen = some text)
    (hRead : readLong text = some (utilization, rest))
    (hRange : InPercent utilization) :
    lastRead settings (r :: older) = utilization := by
  have hValue : r.value? = some utilization := by
    unfold Refilled.value?
    rw [hSeen, Option.bind_some, hRead, Option.map_some,
      min_eq_right hRange.2, max_eq_right hRange.1]
  unfold lastRead
  rw [if_neg hFile, List.filterMap_cons_some hValue]
  rfl

/- A grant changes no refill but for its grants. -/
theorem values_grantOne
    {refills : List Refilled}
    (h :
      ∀ r older, r :: older <:+ refills →
        since < r.time →
          lastRead settings (r :: older) = utilization) :
    ∀ r older, r :: older <:+ grantOne refills →
      since < r.time →
        lastRead settings (r :: older) = utilization := by
  cases refills with
  | nil => exact h
  | cons first rest =>
      intro r older hSuffix hLate
      rcases List.suffix_cons_iff.mp hSuffix with
        hNew | hOld
      · obtain ⟨rfl, rfl⟩ := List.cons.inj hNew
        exact h first _ (List.suffix_refl _) hLate
      · exact
          h r older (hOld.trans (List.suffix_cons first rest))
            hLate

/- A turn of `Acquire` refills by the file, or grants. -/
theorem turn
    (h : Heeds settings since utilization s)
    {text rest : Str}
    (hFile : settings.utilizationFile ≠ [])
    (hRead : readLong text = some (utilization, rest))
    (hRange : InPercent utilization)
    {now later : Int}
    (hStep : s.turn now later (some text) = some s') :
    Heeds settings since utilization s' := by
  unfold TokenLoop.turn at hStep
  split at hStep
  case isTrue =>
    rw [← Option.some.inj hStep]
    exact ⟨h.values, h.rows⟩
  case isFalse =>
    rcases Option.map_eq_some_iff.mp hStep with
      ⟨throttle, hTurn, rfl⟩
    refine ⟨?_, h.rows⟩
    dsimp only
    rw [throttleStep] at hTurn
    split_ifs at hTurn
    · rcases Option.bind_eq_some_iff.mp hTurn with
        ⟨refilled, _, hEq⟩
      obtain rfl := Option.some.inj hEq
      intro r older hSuffix hLate
      rcases List.suffix_cons_iff.mp hSuffix with
        hNew | hOld
      · obtain ⟨rfl, rfl⟩ := List.cons.inj hNew
        exact lastRead_of_read hFile rfl hRead hRange
      · exact h.values r older hOld hLate
    · obtain rfl := Option.some.inj hTurn
      exact values_grantOne h.values
    · obtain rfl := Option.some.inj hTurn
      exact h.values

/- A step of the benchmark whose file says the utilization. -/
theorem step
    (h : Heeds settings since utilization s)
    (hSound : TokenSound cfg settings s)
    {text rest : Str}
    (hFile : settings.utilizationFile ≠ [])
    (hRead : readLong text = some (utilization, rest))
    (hRange : InPercent utilization)
    {e : TokenEvent}
    (hSees : e.Sees (some text))
    (hStep : tokenLoopStep cfg s e = some s') :
    Heeds settings since utilization s' := by
  cases e with
  | stop =>
      rw [← Option.some.inj hStep]
      exact ⟨h.values, h.rows⟩
  | step now =>
      rw [tokenLoopStep] at hStep
      split at hStep
      case isTrue =>
        cases hGate : s.gate with
        | acquiring =>
            rw [hGate] at hStep
            cases hStep
        | acquired =>
            rw [hGate] at hStep
            exact h.work hSound hStep
        | calling =>
            rw [hGate] at hStep
            rcases Option.map_eq_some_iff.mp hStep with
              ⟨throttle, hCall, rfl⟩
            rw [throttleStep] at hCall
            split at hCall
            case isTrue => cases hCall
            case isFalse =>
              obtain rfl := Option.some.inj hCall
              exact ⟨h.values, h.rows⟩
      case isFalse => exact h.work hSound hStep
  | turn now later seen =>
      rw [tokenLoopStep] at hStep
      split at hStep
      case isTrue =>
        obtain rfl : seen = some text := hSees
        exact h.turn hFile hRead hRange hStep
      case isFalse => cases hStep

end Heeds

end Drex

------------------------------------------------------------
-- The File Of A Finished Task
------------------------------------------------------------

namespace Drex

namespace UpdatedTask

variable (t : UpdatedTask)

/- What a reader gets of the file, where it can be opened. -/
def text (s : ServerState) : Option Str :=
  match s.store.node t.file with
  | some (.file data) =>
      some (data.map (fun b => Char.ofNat b.toNat))
  | _ => none

end UpdatedTask

/- A utilization that was written is read as a `long`. -/
theorem readLong_of_prefix
    {utilization : Int}
    {data : Bytes}
    (hRange : InPercent utilization)
    (hText : utilizationText utilization <+: data) :
    ∃ rest,
      readLong (data.map (fun b => Char.ofNat b.toNat)) =
        some (utilization, rest) := by
  have hStored := storedUtilization_of_prefix hRange.1 hText
  rcases Option.map_eq_some_iff.mp hStored with
    ⟨⟨n, rest⟩, hRead, rfl⟩
  have hLow := hRange.1
  have hHigh := hRange.2
  dsimp only at hLow hHigh
  refine ⟨rest, ?_⟩
  unfold readLong
  rw [hRead]
  exact if_pos ⟨by omega, by omega⟩

namespace UpdatedTask

variable {t : UpdatedTask} {store : Store} {p p' : TaskPool}
variable {admits admits' : TaskPool → Actor → Env → Prop}

/- No update hands out anything but percentages. -/
theorem onlyCalls_update
    (t : UpdatedTask)
    (j : Nat) :
    Core.Prog.OnlyCalls ServerOp.HandsInRange
      (t.program (.update j)) := by
  unfold program
  dsimp only
  cases t.updates[j]? with
  | none => exact Core.Prog.onlyCalls_pure _
  | some utilization =>
      exact
        Core.Prog.onlyCalls_bind
          (onlyCalls_updateUtilization_inRange _ _)
          fun _ => Core.Prog.onlyCalls_pure _

/- What was hinted last is a percentage. -/
theorem inPercent_of_lastHint
    (h : Core.Reach t.system admits (t.start store) p)
    {a : Actor}
    {utilization : Int}
    (hLast : lastHint p.log = some (a, utilization)) :
    InPercent utilization := by
  induction h with
  | start => cases hLast
  | @step p b op next env hReach hOp hReady hAdmits ih =>
      have hLog :
          (p.advance t.system b op next env).log =
            p.log ++
              [(b, ⟨op, (exec b.handler op env p.shared).1⟩)] :=
        rfl
      rw [hLog, lastHint_snoc] at hLast
      cases hHint :
          ServerEvent.hint?
            ⟨op, (exec b.handler op env p.shared).1⟩ with
      | none =>
          rw [hHint] at hLast
          exact ih hLast
      | some hint =>
          rw [hHint] at hLast
          obtain ⟨rfl, rfl⟩ :=
            Prod.mk.inj (Option.some.inj hLast)
          cases op with
          | xcliHint xcli pid value =>
              have hPre :=
                hReach.pre_of_calls t.views (keeps_program t)
                  ⟨_, hOp⟩
              rcases hPre with ⟨⟨j, rfl, _⟩, _⟩
              have hStart :
                  Core.Prog.OnlyCalls ServerOp.HandsInRange
                    ((t.start store).progs (.update j)) :=
                onlyCalls_update t j
              have hOnly := hReach.onlyCalls_of hStart
              rw [hOp] at hOnly
              have hRange : InPercent value := hOnly.1
              cases hResult :
                  (exec (Actor.update j).handler
                    (.xcliHint xcli pid value) env
                    p.shared).1 with
              | finished status =>
                  rw [hResult] at hHint
                  unfold ServerEvent.hint? at hHint
                  dsimp only at hHint
                  split at hHint
                  · rw [← Option.some.inj hHint]
                    exact hRange
                  · cases hHint
              | forkFailed =>
                  rw [hResult] at hHint
                  cases hHint
              | waitFailed =>
                  rw [hResult] at hHint
                  cases hHint
          | _ => cases hHint
  | ambient hReach hAmbient ih => exact ih hLast

/- An update that there is not returns at once. -/
theorem returned_of_length_le
    (h : Core.Reach t.system admits (t.start store) p)
    {j : Nat}
    (hLength : t.updates.length ≤ j) :
    p.progs (.update j) = .ret true := by
  refine h.returned ?_
  have hNone : t.updates[j]? = none :=
    List.getElem?_eq_none_iff.mpr hLength
  simp [start, Core.Pool.start, program, hNone]
  rfl

/- Nothing but the rest of the server steps from there on. -/
theorem finished_reach
    (hReach : Core.Reach t.system admits (t.start store) p)
    (hFinished : t.finished p = true)
    (h : Core.Reach t.system admits' p p') :
    p'.progs = p.progs ∧ p'.log = p.log ∧
      t.text p'.shared = t.text p.shared := by
  rcases finished_iff.mp hFinished with
    ⟨hWatches, hChild, hUpdates⟩
  induction h with
  | start => exact ⟨rfl, rfl, rfl⟩
  | @step p' a op next env hMore hOp hReady hAdmits ih =>
      exfalso
      rw [ih.1] at hOp
      cases a with
      | parent =>
          unfold watches Core.Pool.next? at hWatches
          rw [hOp] at hWatches
          cases op with
          | monitor _ _ => cases hReady
          | _ => cases hWatches
      | child =>
          unfold returned? at hChild
          rw [hOp] at hChild
          cases hChild
      | update j =>
          by_cases hJob : j < t.updates.length
          · have hDone := hUpdates j hJob
            unfold returned? at hDone
            rw [hOp] at hDone
            cases hDone
          · have hDone :=
              returned_of_length_le hReach
                (Nat.le_of_not_lt hJob)
            rw [hOp] at hDone
            cases hDone
  | @ambient p' shared hMore hAmbient ih =>
      refine ⟨ih.1, ih.2.1, ?_⟩
      rw [← ih.2.2]
      unfold text
      dsimp only
      rw [hAmbient.1]

/-
  In a run that keeps both stores in order, a reader of the
  file gets the value of the last hint once all are done.
-/
theorem text_of_finished
    (h : Core.Reach t.system t.ordered (t.start store) p)
    (hFinished : t.finished p = true)
    (hSome : t.updates ≠ []) :
    ∃ a utilization text rest,
      lastHint p.log = some (a, utilization) ∧
        InPercent utilization ∧
          t.text p.shared = some text ∧
            readLong text = some (utilization, rest) := by
  have hSound := sound_reach h
  have hUpdates := (finished_iff.mp hFinished).2.2
  have hDone :
      ∀ j, j < t.updates.length →
        (t.viewOf p (.update j)).hinted = true ∧
          (t.viewOf p (.update j)).written = true :=
    fun j hJob =>
      (done_of_returned h (hUpdates j hJob)).2 j rfl hJob rfl
  have hHinted :=
    hSound.hinted _ (hDone 0 (List.length_pos_of_ne_nil hSome)).1
  rcases Option.ne_none_iff_exists'.mp hHinted with
    ⟨⟨a, utilization⟩, hLast⟩
  have hRange := inPercent_of_lastHint h hLast
  rcases hSound.hinter a utilization hLast with
    ⟨⟨j, rfl, hJob⟩, _, _⟩
  rcases hSound.stored _ utilization hLast with
    hUnwritten | ⟨b, hOpened, _⟩ | ⟨data, hNode, hText⟩
  · rw [(hDone j hJob).2] at hUnwritten
    cases hUnwritten
  · rw [closed_of_finished h hFinished b] at hOpened
    cases hOpened
  · rcases readLong_of_prefix hRange hText with
      ⟨rest, hRead⟩
    refine ⟨_, _, _, rest, hLast, hRange, ?_, hRead⟩
    unfold text
    rw [hNode]

end UpdatedTask

end Drex

------------------------------------------------------------
-- The Server And The Benchmark
------------------------------------------------------------

namespace Drex

open Drex.Core

/-
  The server takes admitted steps, and the benchmark takes
  steps that see the file as it is.
-/
inductive Served
    (t : UpdatedTask)
    (admits : TaskPool → Actor → Env → Prop)
    (cfg : LoopConfig)
    (p₀ : TaskPool)
    (l₀ : TokenLoop) :
    TaskPool → TokenLoop → Prop
| start : Served t admits cfg p₀ l₀ p₀ l₀
| serve
    {p p' : TaskPool}
    {l : TokenLoop}
    (h : Served t admits cfg p₀ l₀ p l)
    (hServe : Reach t.system admits p p') :
    Served t admits cfg p₀ l₀ p' l
| run
    {p : TaskPool}
    {l l' : TokenLoop}
    {e : TokenEvent}
    (h : Served t admits cfg p₀ l₀ p l)
    (hSees : e.Sees (t.text p.shared))
    (hStep : tokenLoopStep cfg l e = some l') :
    Served t admits cfg p₀ l₀ p l'

namespace Served

variable {t : UpdatedTask} {cfg : LoopConfig}
variable {admits : TaskPool → Actor → Env → Prop}
variable {p₀ p : TaskPool} {l₀ l : TokenLoop}

theorem pool
    (h : Served t admits cfg p₀ l₀ p l) :
    Reach t.system admits p₀ p := by
  induction h with
  | start => exact .start
  | serve h hServe ih => exact ih.trans hServe
  | run h hSees hStep ih => exact ih

theorem tokenSound
    {settings : ThrottleSettings}
    (hRechecks : cfg.rechecks = true)
    (hSound : TokenSound cfg settings l₀)
    (h : Served t admits cfg p₀ l₀ p l) :
    TokenSound cfg settings l := by
  induction h with
  | start => exact hSound
  | serve h hServe ih => exact ih
  | run h hSees hStep ih => exact ih.step hRechecks hStep

/- Heeding what a finished task has in its file. -/
theorem heeds
    {store : Store}
    {settings : ThrottleSettings}
    {text rest : Str}
    {utilization : Int}
    (hReach : Reach t.system admits (t.start store) p₀)
    (hFinished : t.finished p₀ = true)
    (hText : t.text p₀.shared = some text)
    (hRead : readLong text = some (utilization, rest))
    (hRange : InPercent utilization)
    (hFile : settings.utilizationFile ≠ [])
    (hRechecks : cfg.rechecks = true)
    (hSound : TokenSound cfg settings l₀)
    (h : Served t admits cfg p₀ l₀ p l) :
    Heeds settings l₀.loop.clock utilization l := by
  induction h with
  | start => exact .start hSound
  | serve h hServe ih => exact ih
  | run h hSees hStep ih =>
      have hStays :=
        (UpdatedTask.finished_reach hReach hFinished h.pool).2.2
      rw [hStays, hText] at hSees
      exact
        ih.step (h.tokenSound hRechecks hSound) hFile hRead
          hRange hSees hStep

end Served

/-
  However the server and the benchmark interleave: once the
  task has started and all of its updates have succeeded,
  with both stores in order, every window that begins a
  window of the throttle later reports no more inferences
  than the last hint allows for.
-/
theorem hint_bounds_report
    {t : UpdatedTask}
    {store : Store}
    {cfg : LoopConfig}
    (hRechecks : cfg.rechecks = true)
    {settings : ThrottleSettings}
    (hFile : settings.utilizationFile ≠ [])
    {built now : Int}
    {p₀ p₁ p₂ : TaskPool}
    {l₀ l₁ l₂ : TokenLoop}
    (hReach : Reach t.system t.ordered (t.start store) p₀)
    (hStart :
      tokenLoopStart true settings built (t.text p₀.shared)
        now = some l₀)
    (hBefore : Served t t.ordered cfg p₀ l₀ p₁ l₁)
    (hFinished : t.finished p₁ = true)
    (hSome : t.updates ≠ [])
    (hAfter : Served t t.ordered cfg p₁ l₁ p₂ l₂) :
    ∃ a utilization,
      lastHint p₂.log = some (a, utilization) ∧
        InPercent utilization ∧
        ∀ row ∈ l₂.loop.rows,
          row.BeginsFrom l₂.loop.benchmarkStart
              (l₁.loop.clock + settings.windowNs) →
            (row.iterations : Int) ≤
              (row.windowNs / settings.windowNs + 2) *
                max 1 (utilization * settings.quotaUnit) := by
  have hPool := hReach.trans hBefore.pool
  have hSound :=
    hBefore.tokenSound hRechecks (TokenSound.start hStart)
  rcases UpdatedTask.text_of_finished hPool hFinished hSome with
    ⟨a, utilization, text, rest, hLast, hRange, hText, hRead⟩
  have hLog :=
    (UpdatedTask.finished_reach hPool hFinished
      hAfter.pool).2.1
  have hHeeds :=
    hAfter.heeds hPool hFinished hText hRead hRange hFile
      hRechecks hSound
  refine ⟨a, utilization, ?_, hRange, hHeeds.rows⟩
  rw [hLog]
  exact hLast

/- A run of the benchmark that finds one text throughout. -/
theorem Served.runLabels
    {t : UpdatedTask}
    {admits : TaskPool → Actor → Env → Prop}
    {cfg : LoopConfig}
    {p₀ p : TaskPool}
    {l₀ l l' : TokenLoop}
    (events : List TokenEvent)
    (hSees : ∀ e ∈ events, e.Sees (t.text p.shared))
    (h : Served t admits cfg p₀ l₀ p l)
    (hRun :
      Core.runLabels (tokenLoopStep cfg) events l = some l') :
    Served t admits cfg p₀ l₀ p l' := by
  induction events generalizing l with
  | nil =>
      rw [← Option.some.inj hRun]
      exact h
  | cons e events ih =>
      rcases Option.bind_eq_some_iff.mp hRun with
        ⟨mid, hStep, hRest⟩
      exact
        ih (fun e' hMem => hSees e' (List.mem_cons_of_mem e hMem))
          (.run h (hSees e List.mem_cons_self) hStep) hRest

/- A window that begins at two seconds, with one inference. -/
def secondWindowRun : List TokenEvent :=
  [.step 1, .step 1, .step 2000000000, .step 0, .step 0,
    .turn 2000000000 2000000000 (some "80\n".toList),
    .turn 2000000000 2000000000 (some "80\n".toList),
    .step 0, .step 0, .step 3000000000, .step 3000000000]

/- A benchmark that starts when the last update is done. -/
theorem hint_bounds_report_window :
    ∃ (l : TokenLoop) (utilization : Int),
      l.loop.rows.map WindowRow.iterations = [1] ∧
        InPercent utilization ∧
        ∀ row ∈ l.loop.rows,
          (row.iterations : Int) ≤
            (row.windowNs / secondSettings.windowNs + 2) *
              max 1
                (utilization * secondSettings.quotaUnit) := by
  have hCheck :
      ∀ p a op env,
        (UpdatedTask.small [50, 80]).orderly p a op env =
            true →
          (UpdatedTask.small [50, 80]).system.ready a op
              p.shared ∧
            (UpdatedTask.small [50, 80]).ordered p a env := by
    intro p a op env hPass
    unfold UpdatedTask.orderly at hPass
    rw [Bool.and_eq_true, Bool.and_eq_true] at hPass
    exact ⟨hPass.1.1, hPass.1.2, hPass.2⟩
  have hServer :
      (((UpdatedTask.small [50, 80]).start
          smallStore).runChecked
        (UpdatedTask.small [50, 80]).system
        (UpdatedTask.small [50, 80]).orderly
        (UpdatedTask.turns 15 .parent ++
          UpdatedTask.turns 15 .child ++
          UpdatedTask.turns 10 (.update 0) ++
          UpdatedTask.turns 10 (.update 1))).any
        (fun p =>
          (UpdatedTask.small [50, 80]).finished p &&
            decide
              ((UpdatedTask.small [50, 80]).text p.shared =
                some "80\n".toList)) = true := by
    decide +kernel
  have hLoop :
      (tokenLoopStart true secondSettings 0
          (some "80\n".toList) 1).any
        (fun start =>
          decide (start.loop.clock = 1) &&
            (Core.runLabels (tokenLoopStep oneSecond)
                secondWindowRun start).any
              (fun l =>
                decide
                  (l.loop.rows.map WindowRow.iterations =
                      [1] ∧
                    ∀ row ∈ l.loop.rows,
                      1 + secondSettings.windowNs +
                          row.windowNs ≤
                        l.loop.benchmarkStart +
                          row.elapsedMs * 1000000))) =
        true := by
    decide +kernel
  rcases Core.reach_of_any hCheck hServer with
    ⟨p, hReach, hBoth⟩
  rcases (Bool.and_eq_true _ _).mp hBoth with
    ⟨hFinished, hText⟩
  have hFile := of_decide_eq_true hText
  rcases (Option.any_eq_true _ _).mp hLoop with
    ⟨start, hStart, hRest⟩
  rcases (Bool.and_eq_true _ _).mp hRest with ⟨hClock, hAny⟩
  rcases (Option.any_eq_true _ _).mp hAny with
    ⟨l, hRun, hRows⟩
  rcases of_decide_eq_true hRows with ⟨hCounts, hBegins⟩
  have hSees :
      ∀ e ∈ secondWindowRun,
        e.Sees
          ((UpdatedTask.small [50, 80]).text p.shared) := by
    rw [hFile]
    simp [secondWindowRun, TokenEvent.Sees]
  rw [← hFile] at hStart
  rcases
      hint_bounds_report rfl (by decide) hReach hStart .start
        hFinished (by decide)
        (Served.runLabels _ hSees .start hRun)
    with ⟨_, utilization, _, hRange, hAll⟩
  refine ⟨l, utilization, hCounts, hRange, fun row hRow => ?_⟩
  refine hAll row hRow ?_
  rw [of_decide_eq_true hClock]
  exact hBegins row hRow

end Drex

------------------------------------------------------------
-- What Is In The File
------------------------------------------------------------

namespace Drex

open Drex.Core.Prog

/- Only percentages are written. -/
def ServerOp.WritesInRange : ServerOp → Prop
| .write _ _ data =>
    ∃ u, InPercent u ∧ data = utilizationText u
| _ => True

theorem writesInRange_of_hands
    (op : ServerOp)
    (hOp : op.HandsInRange) :
    op.WritesInRange := by
  cases op <;> first | exact hOp | exact trivial

theorem writesInRange_of_sets
    (op : ServerOp)
    (hOp : op.SetsVariables) :
    op.WritesInRange := by
  cases op <;> first | exact trivial | exact hOp.elim

/- The child's writer checks its bound as the others do. -/
theorem TaskExecutor.onlyCalls_childProcess_writes
    (root : WorkspaceRoot)
    (config : TaskConfig)
    (wantPty : Bool)
    (execCommand : Str) :
    OnlyCalls ServerOp.WritesInRange
      (childProcess root config wantPty execCommand) := by
  unfold childProcess
  simp only []
  apply onlyCalls_call trivial
  intro _
  apply onlyCalls_bind
    (onlyCalls_mono writesInRange_of_sets
      (onlyCalls_configureChildEnvironment _))
  intro _
  apply onlyCalls_bind
    (onlyCalls_mono writesInRange_of_hands
      (onlyCalls_configure_inRange _ _))
  intro _
  apply onlyCalls_bind
    (onlyCalls_mono writesInRange_of_sets
      (onlyCalls_configureXSchedEnvironment _))
  intro _
  exact
    onlyCalls_entering _ _ _ trivial trivial trivial trivial

/- A write of a file that is not there does nothing. -/
theorem Store.tryWrite_of_none
    {s : Store}
    {p : Path}
    (h : s.node p.loc = none)
    (offset : Nat)
    (data : Bytes)
    (ok : Bool)
    (amount : Nat) :
    (s.tryWrite p offset data ok amount).2 = s := by
  unfold tryWrite writeAt mapFile
  rw [h]
  split <;> rfl

/- The text of a percentage is of no other number. -/
theorem utilizationText_inj
    {u v : Int}
    (hRange : 0 ≤ u)
    (h : utilizationText u = utilizationText v) :
    u = v := by
  rcases Int.eq_ofNat_of_zero_le hRange with ⟨k, rfl⟩
  cases v with
  | ofNat n =>
      have hFirst :=
        storedUtilization_of_prefix hRange
          (List.prefix_refl _)
      have hSecond :=
        storedUtilization_of_prefix (Int.natCast_nonneg n)
          (List.prefix_refl _)
      rw [h] at hFirst
      exact Option.some.inj (hFirst.symm.trans hSecond)
  | negSucc m =>
      -- A percentage does not start with a sign.
      have hNil : Nat.toDigits 10 k ≠ [] :=
        Nat.toDigits_ne_nil
      rcases List.exists_cons_of_ne_nil hNil with
        ⟨d, ds, hDigits⟩
      have hDigit : d.isDigit = true := by
        refine isDigit_of_mem_toDigits (n := k) ?_
        rw [hDigits]
        exact List.mem_cons_self
      have hRange := toNat_of_isDigit hDigit
      change
        (Nat.toDigits 10 k ++ ['\n']).map _ =
          ('-' :: Nat.toDigits 10 (m + 1) ++ ['\n']).map _
        at h
      rw [hDigits] at h
      have hHead :
          d.toNat.toUInt8 = ('-' : Char).toNat.toUInt8 :=
        (List.cons.inj h).1
      have hChar :
          Char.ofNat d.toNat.toUInt8.toNat =
            Char.ofNat ('-' : Char).toNat.toUInt8.toNat :=
        congrArg (fun b : UInt8 => Char.ofNat b.toNat) hHead
      rw [ofNat_toUInt8 (by omega), ofNat_toUInt8 (by decide)]
        at hChar
      rw [hChar] at hDigit
      cases hDigit

namespace UpdatedTask

variable (t : UpdatedTask)

theorem onlyCalls_writes
    (a : Actor) :
    OnlyCalls ServerOp.WritesInRange (t.program a) := by
  cases a with
  | parent =>
      refine onlyCalls_bind ?_ fun _ => onlyCalls_pure _
      exact
        onlyCalls_mono writesInRange_of_hands
          (TaskExecutor.onlyCalls_execute_inRange _ _)
  | child =>
      refine onlyCalls_bind ?_ fun _ => onlyCalls_pure _
      exact TaskExecutor.onlyCalls_childProcess_writes _ _ _ _
  | update j =>
      exact
        onlyCalls_mono writesInRange_of_hands
          (onlyCalls_update t j)

/- An actor wrote its percentage, from its start to end. -/
def Wrote (p : TaskPool) (utilization : Int) : Prop :=
  InPercent utilization ∧
    ∃ a q, utilization = t.value a ∧ q.loc = t.file ∧
      (a, ⟨.write q 0 (utilizationText utilization), true⟩) ∈
        p.log

/-
  The file is not there, is empty, or starts with what some
  actor wrote.
-/
def FileSound (p : TaskPool) : Prop :=
  p.shared.store.node t.file = none ∨
    ∃ data, p.shared.store.node t.file = some (.file data) ∧
      (data = [] ∨
        ∃ u, t.Wrote p u ∧ utilizationText u <+: data)

/- The event loses nothing that is written to the file. -/
def whole (e : ServerEvent) : Bool :=
  match e with
  | ⟨.write p _ _, good⟩ => decide (p.loc ≠ t.file) || good
  | ⟨.close p, good⟩ => decide (p.loc ≠ t.file) || good
  | _ => true

/- The steps in which no write and no close of it fails. -/
def losesNothing
    (p : TaskPool)
    (a : Actor)
    (env : Env) : Prop :=
  (nextEvent? p a env).all t.whole = true

variable {t} {p : TaskPool} {a : Actor} {env : Env}

theorem Wrote.advance
    {utilization : Int}
    (h : t.Wrote p utilization)
    (op : ServerOp)
    (next : Resp op → ServerProg Bool) :
    t.Wrote (p.advance t.system a op next env)
      utilization := by
  rcases h with ⟨hRange, b, q, hValue, hFile, hMem⟩
  exact
    ⟨hRange, b, q, hValue, hFile,
      List.mem_append_left _ hMem⟩

/- A step that leaves the file alone. -/
theorem FileSound.keep
    (h : t.FileSound p)
    {op : ServerOp}
    (next : Resp op → ServerProg Bool)
    (hNode :
      (exec a.handler op env p.shared).2.store.node t.file =
        p.shared.store.node t.file) :
    t.FileSound (p.advance t.system a op next env) := by
  unfold FileSound
  have hShared :
      (p.advance t.system a op next env).shared.store.node
          t.file =
        p.shared.store.node t.file :=
    hNode
  rw [hShared]
  rcases h with hNone | ⟨data, hData, hEmpty | hWritten⟩
  · exact Or.inl hNone
  · exact Or.inr ⟨data, hData, Or.inl hEmpty⟩
  · rcases hWritten with ⟨u, hWrote, hText⟩
    exact
      Or.inr
        ⟨data, hData,
          Or.inr ⟨u, hWrote.advance op next, hText⟩⟩

/- A step of any actor, as it keeps to its conditions. -/
theorem FileSound.step
    (h : t.FileSound p)
    {op : ServerOp}
    {next : Resp op → ServerProg Bool}
    (hPre : t.pre a (t.viewOf p a) op)
    (hWrites : op.WritesInRange)
    (hWhole :
      t.whole ⟨op, (exec a.handler op env p.shared).1⟩ =
        true) :
    t.FileSound (p.advance t.system a op next env) := by
  cases op with
  | createDirectories q =>
      exact h.keep next (exec_node _ _ _ hPre)
  | removeAll q => exact hPre.elim
  | openTrunc q =>
      by_cases hFile : q.loc = t.file
      · rcases p.shared.store.tryOpen_cases q
            (env.answer (.openTrunc q)) with
          ⟨_, hStore⟩ | ⟨_, hEmpty⟩
        · exact
            h.keep next
              (congrArg (fun s => s.node t.file) hStore)
        · rw [hFile] at hEmpty
          exact Or.inr ⟨[], hEmpty, Or.inl rfl⟩
      · exact h.keep next (exec_node _ _ _ (Ne.symm hFile))
  | write q offset data =>
      by_cases hFile : q.loc = t.file
      · rcases hPre hFile with ⟨_, rfl, hValue⟩
        rcases hWrites with ⟨u, hRange, hText⟩
        have hOwn : u = t.value a :=
          utilizationText_inj hRange.1 (hText.symm.trans hValue)
        subst hText
        have hGood :
            (exec a.handler (.write q 0 (utilizationText u))
              env p.shared).1 = true := by
          simpa [whole, hFile] using hWhole
        rcases h with hNone | ⟨content, hContent, _⟩
        · -- There is nothing to write to.
          rw [← hFile] at hNone
          refine FileSound.keep (Or.inl ?_) next ?_
          · rw [← hFile]
            exact hNone
          · exact
              congrArg (fun s => s.node t.file)
                (Store.tryWrite_of_none hNone _ _ _ _)
        · rw [← hFile] at hContent
          rcases Store.hasFile_tryWrite (utilizationText u)
              (env.answer (.write q 0 (utilizationText u)))
              env.amount hContent with
            ⟨data, hNode, hPrefix⟩
          rw [hFile] at hNode
          have hLogged :
              (a, ⟨.write q 0 (utilizationText u), true⟩) ∈
                (p.advance t.system a
                  (.write q 0 (utilizationText u)) next
                  env).log := by
            refine List.mem_append_right _ ?_
            rw [← hGood]
            exact List.mem_singleton_self _
          exact
            Or.inr
              ⟨data, hNode,
                Or.inr
                  ⟨u, ⟨hRange, a, q, hOwn, hFile, hLogged⟩,
                    hPrefix hGood⟩⟩
      · exact h.keep next (exec_node _ _ _ (Ne.symm hFile))
  | close q =>
      by_cases hFile : q.loc = t.file
      · have hGood :
            (exec a.handler (.close q) env p.shared).1 =
              true := by
          simpa [whole, hFile] using hWhole
        refine h.keep next ?_
        exact
          congrArg (fun s => s.node t.file)
            ((p.shared.store.tryClose_cases q
              (env.answer (.close q)) env.amount).1 hGood)
      · exact h.keep next (exec_node _ _ _ (Ne.symm hFile))
  | _ => exact h.keep next rfl

/- So it is in every pool that such steps reach. -/
theorem fileSound_reach
    {store : Store}
    (hNew : store.node t.file = none)
    (h : Core.Reach t.system t.losesNothing (t.start store) p) :
    t.FileSound p := by
  induction h with
  | start => exact Or.inl hNew
  | @step p a op next env hReach hOp hReady hAdmits ih =>
      have hPre :=
        hReach.pre_of_calls t.views (keeps_program t)
          ⟨_, hOp⟩
      have hStart :
          OnlyCalls ServerOp.WritesInRange
            ((t.start store).progs a) :=
        onlyCalls_writes t a
      have hOnly := hReach.onlyCalls_of hStart
      rw [hOp] at hOnly
      refine ih.step hPre hOnly.1 ?_
      unfold losesNothing nextEvent? Core.Pool.next?
        at hAdmits
      rw [hOp] at hAdmits
      exact hAdmits
  | @ambient p shared hReach hAmbient ih =>
      unfold FileSound
      dsimp only
      rw [hAmbient.1]
      exact ih

/- What was written stays written. -/
theorem Wrote.reach
    {admits : TaskPool → Actor → Env → Prop}
    {p' : TaskPool}
    {utilization : Int}
    (hWrote : t.Wrote p utilization)
    (h : Core.Reach t.system admits p p') :
    t.Wrote p' utilization := by
  induction h with
  | start => exact hWrote
  | step hReach hOp hReady hAdmits ih => exact ih.advance _ _
  | ambient hReach hAmbient ih => exact ih

/- A refill has no value, or one that an actor wrote. -/
def ReadsWritten (p : TaskPool) (r : Refilled) : Prop :=
  r.value? = none ∨
    ∃ u, t.Wrote p u ∧ r.value? = some u

end UpdatedTask

end Drex

------------------------------------------------------------
-- What The Throttle Reads
------------------------------------------------------------

namespace Drex

open Drex.Core

/- A step keeps what refills read, or reads the file. -/
theorem tokenLoopStep_seen
    {cfg : LoopConfig}
    {l l' : TokenLoop}
    {e : TokenEvent}
    {text : Option Str}
    (hSees : e.Sees text)
    (hStep : tokenLoopStep cfg l e = some l')
    {r : Refilled}
    (hMem : r ∈ l'.throttle.refills) :
    r.seen = text ∨
      ∃ r₀ ∈ l.throttle.refills, r₀.seen = r.seen := by
  have hWork :
      ∀ {now}, l.work cfg now = some l' →
        ∃ r₀ ∈ l.throttle.refills, r₀.seen = r.seen := by
    intro now hWork
    rcases Option.map_eq_some_iff.mp hWork with
      ⟨loop, _, rfl⟩
    exact ⟨r, hMem, rfl⟩
  cases e with
  | stop =>
      rw [← Option.some.inj hStep] at hMem
      exact Or.inr ⟨r, hMem, rfl⟩
  | step now =>
      rw [tokenLoopStep] at hStep
      split at hStep
      case isTrue =>
        cases hGate : l.gate with
        | acquiring =>
            rw [hGate] at hStep
            cases hStep
        | acquired =>
            rw [hGate] at hStep
            exact Or.inr (hWork hStep)
        | calling =>
            rw [hGate] at hStep
            rcases Option.map_eq_some_iff.mp hStep with
              ⟨throttle, hCall, rfl⟩
            rw [throttleStep] at hCall
            split at hCall
            · cases hCall
            · obtain rfl := Option.some.inj hCall
              exact Or.inr ⟨r, hMem, rfl⟩
      case isFalse => exact Or.inr (hWork hStep)
  | turn now later seen =>
      obtain rfl : seen = text := hSees
      rw [tokenLoopStep] at hStep
      split at hStep
      case isFalse => cases hStep
      case isTrue =>
        unfold TokenLoop.turn at hStep
        split at hStep
        case isTrue =>
          rw [← Option.some.inj hStep] at hMem
          exact Or.inr ⟨r, hMem, rfl⟩
        case isFalse =>
          rcases Option.map_eq_some_iff.mp hStep with
            ⟨throttle, hTurn, rfl⟩
          dsimp only at hMem
          rw [throttleStep] at hTurn
          split_ifs at hTurn
          · rcases Option.bind_eq_some_iff.mp hTurn with
              ⟨refilled, _, hEq⟩
            obtain rfl := Option.some.inj hEq
            rcases List.mem_cons.mp hMem with rfl | hOld
            · exact Or.inl rfl
            · exact Or.inr ⟨r, hOld, rfl⟩
          · obtain rfl := Option.some.inj hTurn
            right
            dsimp only at hMem
            cases hRefills : l.throttle.refills with
            | nil =>
                rw [hRefills] at hMem
                cases hMem
            | cons first older =>
                rw [hRefills] at hMem
                rcases List.mem_cons.mp hMem with
                  rfl | hOld
                · exact ⟨first, List.mem_cons_self, rfl⟩
                · exact
                    ⟨r, List.mem_cons_of_mem _ hOld, rfl⟩
          · obtain rfl := Option.some.inj hTurn
            exact Or.inr ⟨r, hMem, rfl⟩

namespace UpdatedTask

variable {t : UpdatedTask} {p p' : TaskPool}

/- What a refill read is all that its value depends on. -/
theorem ReadsWritten.of_seen
    {r r₀ : Refilled}
    (h : t.ReadsWritten p r₀)
    (hSeen : r₀.seen = r.seen) :
    t.ReadsWritten p r := by
  have hValue : r.value? = r₀.value? := by
    unfold Refilled.value?
    rw [hSeen]
  unfold ReadsWritten
  rw [hValue]
  exact h

theorem ReadsWritten.reach
    {admits : TaskPool → Actor → Env → Prop}
    {r : Refilled}
    (hReads : t.ReadsWritten p r)
    (h : Reach t.system admits p p') :
    t.ReadsWritten p' r := by
  rcases hReads with hNone | ⟨u, hWrote, hValue⟩
  · exact Or.inl hNone
  · exact Or.inr ⟨u, hWrote.reach h, hValue⟩

/- A sound file is read as nothing, or as what was written. -/
theorem FileSound.readsWritten
    (h : t.FileSound p)
    {r : Refilled}
    (hSeen : r.seen = t.text p.shared) :
    t.ReadsWritten p r := by
  unfold ReadsWritten Refilled.value?
  rw [hSeen]
  unfold text
  rcases h with hNone | ⟨data, hData, hEmpty | hWritten⟩
  · left
    rw [hNone]
    rfl
  · left
    rw [hData, hEmpty]
    rfl
  · right
    rcases hWritten with ⟨u, hWrote, hText⟩
    rcases readLong_of_prefix hWrote.1 hText with
      ⟨rest, hRead⟩
    refine ⟨u, hWrote, ?_⟩
    rw [hData]
    dsimp only
    rw [Option.bind_some, hRead, Option.map_some,
      min_eq_right hWrote.1.2, max_eq_right hWrote.1.1]

end UpdatedTask

/-
  However the server and the benchmark interleave, as long
  as no write and no close of the new file fails, the
  throttle goes by 100 or by a percentage that the config or
  an update asked for and that was written whole.
-/
theorem throttle_reads_written
    {t : UpdatedTask}
    {store : Store}
    (hNew : store.node t.file = none)
    {cfg : LoopConfig}
    {settings : ThrottleSettings}
    {built now : Int}
    {p₀ p : TaskPool}
    {l₀ l : TokenLoop}
    (hReach : Reach t.system t.losesNothing (t.start store) p₀)
    (hStart :
      tokenLoopStart true settings built (t.text p₀.shared)
        now = some l₀)
    (h : Served t t.losesNothing cfg p₀ l₀ p l)
    {refills : List Refilled}
    (hSuffix : refills <:+ l.throttle.refills) :
    lastRead settings refills = 100 ∨
      t.Wrote p (lastRead settings refills) := by
  have hReads :
      ∀ r ∈ l.throttle.refills, t.ReadsWritten p r := by
    clear hSuffix
    induction h with
    | start =>
        have hSound := UpdatedTask.fileSound_reach hNew hReach
        rcases Option.bind_eq_some_iff.mp hStart with
          ⟨throttle, hThrottle, hRest⟩
        rcases Option.bind_eq_some_iff.mp hThrottle with
          ⟨refilled, _, hEq⟩
        obtain rfl := Option.some.inj hEq
        split at hRest
        case isFalse => cases hRest
        case isTrue =>
          obtain rfl := Option.some.inj hRest
          intro r hMem
          rw [List.mem_singleton.mp hMem]
          exact hSound.readsWritten rfl
    | serve h hServe ih =>
        exact fun r hMem => (ih r hMem).reach hServe
    | run h hSees hStep ih =>
        intro r hMem
        rcases tokenLoopStep_seen hSees hStep hMem with
          hHere | ⟨r₀, hOld, hSeen⟩
        · have hSound :=
            UpdatedTask.fileSound_reach hNew
              (hReach.trans h.pool)
          exact hSound.readsWritten hHere
        · exact (ih r₀ hOld).of_seen hSeen
  unfold lastRead
  split
  · exact Or.inl rfl
  · cases hHead :
        (refills.filterMap Refilled.value?).head? with
    | none => exact Or.inl rfl
    | some u =>
        have hMem := List.mem_of_mem_head? hHead
        rcases List.mem_filterMap.mp hMem with
          ⟨r, hRefill, hValue⟩
        rcases hReads r (hSuffix.subset hRefill) with
          hNone | ⟨v, hWrote, hSame⟩
        · rw [hNone] at hValue
          cases hValue
        · rw [hSame] at hValue
          obtain rfl := Option.some.inj hValue
          exact Or.inr hWrote

/- The steps at which the file loses nothing. -/
def UpdatedTask.lossless
    (t : UpdatedTask)
    (p : TaskPool)
    (a : Actor)
    (op : ServerOp)
    (env : Env) :
    Bool :=
  ready a op p.shared && (nextEvent? p a env).all t.whole

/-
  A throttle that finds the file just emptied goes by 100,
  and later by what the update has written.
-/
theorem throttle_reads_written_emptied :
    ∃ (p : TaskPool) (l : TokenLoop),
      l.throttle.refills.map Refilled.value? =
          [some 50, none] ∧
        ∀ refills, refills <:+ l.throttle.refills →
          lastRead secondSettings refills = 100 ∨
            (UpdatedTask.small [50]).Wrote p
              (lastRead secondSettings refills) := by
  have hCheck :
      ∀ p a op env,
        (UpdatedTask.small [50]).lossless p a op env = true →
          (UpdatedTask.small [50]).system.ready a op
              p.shared ∧
            (UpdatedTask.small [50]).losesNothing p a env := by
    intro p a op env hPass
    unfold UpdatedTask.lossless at hPass
    rw [Bool.and_eq_true] at hPass
    exact hPass
  have hServer :
      (((UpdatedTask.small [50]).start smallStore).runChecked
        (UpdatedTask.small [50]).system
        (UpdatedTask.small [50]).lossless
        (UpdatedTask.turns 15 .parent ++
          UpdatedTask.turns 15 .child ++
          UpdatedTask.turns 8 (.update 0))).any
        (fun p₀ =>
          decide
              ((UpdatedTask.small [50]).text p₀.shared =
                some []) &&
            (p₀.runChecked (UpdatedTask.small [50]).system
              (UpdatedTask.small [50]).lossless
              (UpdatedTask.turns 2 (.update 0))).any
              (fun p =>
                decide
                  ((UpdatedTask.small [50]).text p.shared =
                    some "50\n".toList))) = true := by
    decide +kernel
  have hLoop :
      (tokenLoopStart true secondSettings 0 (some []) 1).any
        (fun start =>
          (runLabels (tokenLoopStep oneSecond)
              [.step 1, .step 1, .step 2000000000, .step 0,
                .step 0,
                .turn 2000000000 2000000000
                  (some "50\n".toList)]
              start).any
            (fun l =>
              decide
                (l.throttle.refills.map Refilled.value? =
                  [some 50, none]))) = true := by
    decide +kernel
  rcases reach_of_any hCheck hServer with
    ⟨p₀, hReach, hBoth⟩
  rcases (Bool.and_eq_true _ _).mp hBoth with
    ⟨hEmptied, hMore⟩
  rcases (Option.any_eq_true _ _).mp hMore with
    ⟨p, hWrites, hText⟩
  rcases (Option.any_eq_true _ _).mp hLoop with
    ⟨start, hStart, hAny⟩
  rcases (Option.any_eq_true _ _).mp hAny with
    ⟨l, hRun, hValues⟩
  rw [← of_decide_eq_true hEmptied] at hStart
  have hServed :
      Served (UpdatedTask.small [50])
        (UpdatedTask.small [50]).losesNothing oneSecond p₀
        start p start :=
    .serve .start (reach_runChecked hCheck .start hWrites)
  have hSees :
      ∀ e ∈ [TokenEvent.step 1, .step 1, .step 2000000000,
          .step 0, .step 0,
          .turn 2000000000 2000000000
            (some "50\n".toList)],
        e.Sees ((UpdatedTask.small [50]).text p.shared) := by
    rw [of_decide_eq_true hText]
    simp [TokenEvent.Sees]
  refine ⟨p, l, of_decide_eq_true hValues, ?_⟩
  intro refills hSuffix
  exact
    throttle_reads_written (by decide +kernel) hReach hStart
      (hServed.runLabels _ hSees hRun) hSuffix

end Drex
