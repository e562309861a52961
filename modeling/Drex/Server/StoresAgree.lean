import Drex.Server.Stores

/-
  The hints of a task and its utilization file agree in the
  end.

  No lock spans the two stores, so this holds only while
  nobody with another value gets to the file after the
  update that hinted last has written it.  The child that
  writes the first value late, and an update that hinted
  earlier and writes later, both break it.

  Key definitions include:
    * `StoresSound`
    * `UpdatedTask.ordered`

  Key theorems include:
    * `UpdatedTask.sound_step`
    * `UpdatedTask.sound_reach`
    * `stores_agree`
    * `lateWrites_disagree`
-/

------------------------------------------------------------
-- The Invariant
------------------------------------------------------------

namespace Drex

/-
  What the views of the actors, the last hint and the node
  at the place of the file have to do with each other.  The
  actor that hinted last has yet to write the file, or the
  file is being written with its value, or starts with it.
-/
structure StoresSound
    (t : UpdatedTask)
    (views : Actor → HintView)
    (last : Option (Actor × Int))
    (node : Option Node) : Prop where
  opened :
    ∀ a, (views a).opened = true →
      ∃ data, node = some (.file data)
  hinted :
    ∀ a, (views a).hinted = true → last ≠ none
  hinter :
    ∀ a utilization, last = some (a, utilization) →
      (∃ j, a = .update j ∧ j < t.updates.length) ∧
        utilization = t.value a ∧ 0 ≤ utilization
  stored :
    ∀ a utilization, last = some (a, utilization) →
      (views a).written = false ∨
        (∃ b, (views b).opened = true ∧
          t.value b = utilization) ∨
        ∃ data, node = some (.file data) ∧
          utilizationText utilization <+: data

namespace StoresSound

variable {t : UpdatedTask} {views : Actor → HintView}
variable {last : Option (Actor × Int)}
variable {node : Option Node}

/- A hint is the last one, and its update has to write. -/
theorem hint
    (h : StoresSound t views last node)
    {a : Actor}
    (hUpdate : ∃ j, a = .update j ∧ j < t.updates.length)
    (hRange : 0 ≤ t.value a)
    (hIdle : (views a).Idle) :
    StoresSound t
      (Function.update views a
        { views a with hinted := true })
      (some (a, t.value a)) node where
  opened := by
    intro b hOpened
    by_cases hEq : b = a
    · rw [hEq, Function.update_self] at hOpened
      exact h.opened a hOpened
    · rw [Function.update_of_ne hEq] at hOpened
      exact h.opened b hOpened
  hinted := fun _ _ => Option.some_ne_none _
  hinter := by
    intro b utilization hLast
    cases hLast
    exact ⟨hUpdate, rfl, hRange⟩
  stored := by
    intro b utilization hLast
    cases hLast
    left
    rw [Function.update_self]
    exact hIdle.written

/- The file is emptied by one who will write it. -/
theorem openFile
    (h : StoresSound t views last node)
    {a : Actor}
    (hKeeps :
      ∀ b utilization, last = some (b, utilization) →
        (views b).written = true → t.value a = utilization) :
    StoresSound t
      (Function.update views a
        { views a with opened := true })
      last (some (.file [])) where
  opened := fun _ _ => ⟨[], rfl⟩
  hinted := by
    intro b hHinted
    by_cases hEq : b = a
    · rw [hEq, Function.update_self] at hHinted
      exact h.hinted a hHinted
    · rw [Function.update_of_ne hEq] at hHinted
      exact h.hinted b hHinted
  hinter := h.hinter
  stored := by
    intro b utilization hLast
    cases hWritten : (views b).written with
    | false =>
        left
        by_cases hEq : b = a
        · rw [hEq, Function.update_self]
          rw [hEq] at hWritten
          exact hWritten
        · rw [Function.update_of_ne hEq]
          exact hWritten
    | true =>
        right
        left
        refine ⟨a, ?_, hKeeps b utilization hLast hWritten⟩
        rw [Function.update_self]

/- The file is written by one who has it open. -/
theorem writeFile
    (h : StoresSound t views last node)
    {a : Actor}
    (good : Bool)
    {data : Bytes}
    (hText :
      good = true → utilizationText (t.value a) <+: data)
    (hOwn :
      ∀ utilization, last = some (a, utilization) →
        good = true)
    (hKeeps :
      ∀ b utilization, last = some (b, utilization) →
        (views b).written = true →
          good = true ∧ t.value a = utilization) :
    StoresSound t
      (Function.update views a
        { views a with
          opened := false
          written := (views a).written || good })
      last (some (.file data)) where
  opened := fun _ _ => ⟨data, rfl⟩
  hinted := by
    intro b hHinted
    by_cases hEq : b = a
    · rw [hEq, Function.update_self] at hHinted
      exact h.hinted a hHinted
    · rw [Function.update_of_ne hEq] at hHinted
      exact h.hinted b hHinted
  hinter := h.hinter
  stored := by
    intro b utilization hLast
    by_cases hEq : b = a
    · rw [hEq] at hLast
      have hGood := hOwn utilization hLast
      have hValue := (h.hinter a utilization hLast).2.1
      right
      right
      rw [hValue]
      exact ⟨data, rfl, hText hGood⟩
    · rw [Function.update_of_ne hEq]
      cases hWritten : (views b).written with
      | false => exact Or.inl rfl
      | true =>
          rcases hKeeps b utilization hLast hWritten with
            ⟨hGood, hValue⟩
          right
          right
          rw [← hValue]
          exact ⟨data, rfl, hText hGood⟩

/- Closing keeps what the last hinter has written. -/
theorem closeFile
    (h : StoresSound t views last node)
    {node' : Option Node}
    (hFile :
      ∀ data, node = some (.file data) →
        ∃ data', node' = some (.file data'))
    (hKeeps :
      ∀ b utilization, last = some (b, utilization) →
        (views b).written = true → node' = node) :
    StoresSound t views last node' where
  opened := by
    intro a hOpened
    rcases h.opened a hOpened with ⟨data, hData⟩
    exact hFile data hData
  hinted := h.hinted
  hinter := h.hinter
  stored := by
    intro b utilization hLast
    by_cases hWritten : (views b).written = true
    · rw [hKeeps b utilization hLast hWritten]
      exact h.stored b utilization hLast
    · exact Or.inl (Bool.eq_false_of_not_eq_true hWritten)

end StoresSound

end Drex

------------------------------------------------------------
-- One Step
------------------------------------------------------------

namespace Drex

namespace Store

/- Opening fails and changes nothing, or empties the file. -/
theorem tryOpen_cases
    (s : Store)
    (p : Path)
    (ok : Bool) :
    ((s.tryOpen p ok).1 = false ∧ (s.tryOpen p ok).2 = s) ∨
      ((s.tryOpen p ok).1 = true ∧
        (s.tryOpen p ok).2.HasFile p.loc []) := by
  unfold tryOpen
  by_cases hTried : ok = true ∧ p.slash = false
  · rw [if_pos hTried]
    cases hOpen : s.openTrunc p.loc with
    | none => exact Or.inl ⟨rfl, rfl⟩
    | some s' =>
        right
        refine ⟨rfl, ?_⟩
        unfold HasFile
        rw [node_openTrunc hOpen]
        exact Function.update_self _ _ _
  · rw [if_neg hTried]
    exact Or.inl ⟨rfl, rfl⟩

theorem hasFile_mapFile
    {s : Store}
    {l : Loc}
    {data : Bytes}
    (f : Bytes → Bytes)
    (h : s.HasFile l data) :
    (s.mapFile l f).HasFile l (f data) := by
  unfold HasFile
  rw [node_mapFile_of_file f h]
  exact Function.update_self _ _ _

/- A write from the start puts its text first. -/
theorem hasFile_tryWrite
    {s : Store}
    {p : Path}
    {content : Bytes}
    (text : Bytes)
    (ok : Bool)
    (amount : Nat)
    (h : s.HasFile p.loc content) :
    ∃ data,
      (s.tryWrite p 0 text ok amount).2.HasFile p.loc data ∧
        ((s.tryWrite p 0 text ok amount).1 = true →
          text <+: data) := by
  unfold tryWrite
  cases ok with
  | true =>
      refine ⟨_, hasFile_mapFile _ h, fun _ => ?_⟩
      simp [overwrite]
  | false =>
      refine ⟨_, hasFile_mapFile _ h, fun hGood => ?_⟩
      cases hGood

/- A close that succeeds changes nothing. -/
theorem tryClose_cases
    (s : Store)
    (p : Path)
    (ok : Bool)
    (amount : Nat) :
    ((s.tryClose p ok amount).1 = true →
        (s.tryClose p ok amount).2 = s) ∧
      ∀ data, s.HasFile p.loc data →
        ∃ data',
          (s.tryClose p ok amount).2.HasFile p.loc data' := by
  unfold tryClose
  cases ok with
  | true => exact ⟨fun _ => rfl, fun data h => ⟨data, h⟩⟩
  | false =>
      refine ⟨?_, fun data h => ⟨_, hasFile_mapFile _ h⟩⟩
      intro hGood
      cases hGood

end Store

namespace UpdatedTask

variable (t : UpdatedTask) (p : TaskPool) (a : Actor)

/- A step changes the view of its own actor. -/
theorem viewOf_advance
    (op : ServerOp)
    (next : Resp op → ServerProg Bool)
    (env : Env) :
    t.viewOf (p.advance t.system a op next env) =
      Function.update (t.viewOf p) a
        ((t.viewOf p a).after t.file op
          (exec a.handler op env p.shared).1) := by
  funext b
  by_cases hEq : b = a
  · rw [hEq, Function.update_self]
    exact t.views.own p a op next env
  · rw [Function.update_of_ne hEq]
    exact t.views.other p a b op next env hEq

/- The invariant of a pool. -/
def Sound : Prop :=
  StoresSound t (t.viewOf p) (lastHint p.log)
    (p.shared.store.node t.file)

variable {t p a}

/- The invariant after a step, from the step's effects. -/
theorem sound_advance
    {op : ServerOp}
    {next : Resp op → ServerProg Bool}
    {env : Env}
    {g : HintView}
    {last : Option (Actor × Int)}
    {node : Option Node}
    (h :
      StoresSound t (Function.update (t.viewOf p) a g) last
        node)
    (hView :
      (t.viewOf p a).after t.file op
        (exec a.handler op env p.shared).1 = g)
    (hLast :
      ((ServerEvent.hint?
          ⟨op, (exec a.handler op env p.shared).1⟩).map
          (fun h => (a, h.2))).or (lastHint p.log) = last)
    (hNode :
      (exec a.handler op env p.shared).2.store.node t.file =
        node) :
    t.Sound (p.advance t.system a op next env) := by
  unfold Sound
  rw [t.viewOf_advance, hView]
  have hLog :
      (p.advance t.system a op next env).log =
        p.log ++
          [(a, ⟨op, (exec a.handler op env p.shared).1⟩)] :=
    rfl
  rw [hLog, lastHint_snoc, hLast]
  have hShared :
      (p.advance t.system a op next env).shared.store.node
          t.file =
        node :=
    hNode
  rw [hShared]
  exact h

/- A step that touches neither store. -/
theorem sound_advance_of_same
    {op : ServerOp}
    {next : Resp op → ServerProg Bool}
    {env : Env}
    (h : t.Sound p)
    (hView :
      (t.viewOf p a).after t.file op
          (exec a.handler op env p.shared).1 =
        t.viewOf p a)
    (hHint :
      ServerEvent.hint?
          ⟨op, (exec a.handler op env p.shared).1⟩ = none)
    (hNode :
      (exec a.handler op env p.shared).2.store.node t.file =
        p.shared.store.node t.file) :
    t.Sound (p.advance t.system a op next env) := by
  refine sound_advance ?_ hView (by rw [hHint]) hNode
  rw [Function.update_eq_self]
  exact h

variable (t p a)

/- The conditions, for one event of an actor. -/
structure Admits (e : ServerEvent) : Prop where
  succeeds :
    ∀ j, a = .update j → e.succeeds t.file = true
  keeps :
    ∀ b utilization,
      lastHint p.log = some (b, utilization) →
        (t.viewOf p b).written = true →
          e.keeps t.file
            (decide (t.value a = utilization)) = true

variable {t p a}

/- The conditions on a step, on the event it adds. -/
theorem event_of_admitted
    {op : ServerOp}
    {next : Resp op → ServerProg Bool}
    {env : Env}
    (hOp : p.progs a = .call op next)
    (hSucceed : t.updatesSucceed p a env = true)
    (hInOrder : t.inOrder p a env = true) :
    t.Admits p a ⟨op, (exec a.handler op env p.shared).1⟩ := by
  have hEvent :
      nextEvent? p a env =
        some ⟨op, (exec a.handler op env p.shared).1⟩ := by
    simp [nextEvent?, Core.Pool.next?, hOp]
  constructor
  · rintro j rfl
    unfold updatesSucceed at hSucceed
    rw [hEvent] at hSucceed
    exact hSucceed
  · intro b utilization hLast hWritten
    unfold inOrder at hInOrder
    rw [hLast, hEvent] at hInOrder
    simpa [hWritten] using hInOrder

section
variable {env : Env}

/- An update hints its task. -/
theorem sound_xcliHint
    {xcli : Str}
    {pid utilization : Int}
    {next : Resp (.xcliHint xcli pid utilization) →
      ServerProg Bool}
    (hPre :
      t.pre a (t.viewOf p a)
        (.xcliHint xcli pid utilization))
    (hAdmits :
      t.Admits p a
        ⟨.xcliHint xcli pid utilization,
          (exec a.handler (.xcliHint xcli pid utilization)
            env p.shared).1⟩)
    (h : t.Sound p) :
    t.Sound
      (p.advance t.system a
        (.xcliHint xcli pid utilization) next env) := by
  rcases hPre with ⟨⟨j, hJob, hLength⟩, hSame, hRange, hIdle⟩
  have hClean := hAdmits.succeeds j hJob
  cases hResult :
      (exec a.handler (.xcliHint xcli pid utilization)
        env p.shared).1 with
  | forkFailed =>
      rw [hResult] at hClean
      cases hClean
  | waitFailed =>
      rw [hResult] at hClean
      cases hClean
  | finished status =>
      rw [hResult] at hClean
      have hExited : exitedCleanly status = true := hClean
      rw [hSame] at hRange
      refine
        sound_advance
          (h.hint ⟨j, hJob, hLength⟩ hRange hIdle)
          ?_ ?_ rfl
      · rw [hResult]
        simp [HintView.after, hExited]
      · rw [hResult]
        simp [ServerEvent.hint?, hExited, hSame]

/- The utilization file is opened, or the open fails. -/
theorem sound_openTrunc
    {q : Path}
    {next : Resp (.openTrunc q) → ServerProg Bool}
    (hFile : q.loc = t.file)
    (hAdmits :
      t.Admits p a
        ⟨.openTrunc q,
          (exec a.handler (.openTrunc q) env p.shared).1⟩)
    (h : t.Sound p) :
    t.Sound
      (p.advance t.system a (.openTrunc q) next env) := by
  rcases p.shared.store.tryOpen_cases q
      (env.answer (.openTrunc q)) with
    ⟨hClosed, hStore⟩ | ⟨hOpen, hEmpty⟩
  · have hNot :
        (exec a.handler (.openTrunc q) env p.shared).1 =
          false :=
      hClosed
    refine
      sound_advance_of_same h ?_ rfl
        (congrArg (fun s => s.node t.file) hStore)
    rw [hNot]
    simp [HintView.after]
  · have hDone :
        (exec a.handler (.openTrunc q) env p.shared).1 =
          true :=
      hOpen
    rw [hFile] at hEmpty
    rw [hDone] at hAdmits
    refine sound_advance (h.openFile ?_) ?_ rfl hEmpty
    · intro b utilization hLast hWritten
      have hSame := hAdmits.keeps b utilization hLast hWritten
      simpa [ServerEvent.keeps, hFile] using hSame
    · rw [hDone]
      simp [HintView.after, hFile]

/- The open utilization file is written. -/
theorem sound_write
    {q : Path}
    {offset : Nat}
    {data : Bytes}
    {next : Resp (.write q offset data) → ServerProg Bool}
    (hFile : q.loc = t.file)
    (hPre : t.pre a (t.viewOf p a) (.write q offset data))
    (hAdmits :
      t.Admits p a
        ⟨.write q offset data,
          (exec a.handler (.write q offset data) env
            p.shared).1⟩)
    (h : t.Sound p) :
    t.Sound
      (p.advance t.system a (.write q offset data) next
        env) := by
  rcases hPre hFile with ⟨hOpened, hStart, hText⟩
  rcases h.opened a hOpened with ⟨content, hContent⟩
  rw [← hFile] at hContent
  rcases Store.hasFile_tryWrite data
      (env.answer (.write q offset data)) env.amount
      hContent with
    ⟨data', hNode, hPrefix⟩
  rw [← hStart, hFile] at hNode
  rw [← hStart] at hPrefix
  refine
    sound_advance
      (h.writeFile
        (exec a.handler (.write q offset data) env
          p.shared).1 ?_ ?_ ?_)
      (by simp [HintView.after, hFile]) rfl hNode
  · rw [← hText]
    exact hPrefix
  · intro utilization hLast
    rcases (h.hinter a utilization hLast).1 with
      ⟨j, hJob, _⟩
    have hGood := hAdmits.succeeds j hJob
    simpa [ServerEvent.succeeds, hFile] using hGood
  · intro b utilization hLast hWritten
    have hGood := hAdmits.keeps b utilization hLast hWritten
    simpa [ServerEvent.keeps, hFile] using hGood

/- The utilization file is closed. -/
theorem sound_close
    {q : Path}
    {next : Resp (.close q) → ServerProg Bool}
    (hFile : q.loc = t.file)
    (hAdmits :
      t.Admits p a
        ⟨.close q,
          (exec a.handler (.close q) env p.shared).1⟩)
    (h : t.Sound p) :
    t.Sound (p.advance t.system a (.close q) next env) := by
  rcases p.shared.store.tryClose_cases q
      (env.answer (.close q)) env.amount with
    ⟨hSame, hStays⟩
  rw [hFile] at hStays
  refine sound_advance (g := t.viewOf p a) ?_ rfl rfl rfl
  rw [Function.update_eq_self]
  refine h.closeFile hStays ?_
  intro b utilization hLast hWritten
  have hGood := hAdmits.keeps b utilization hLast hWritten
  simp only [ServerEvent.keeps, hFile, ne_eq,
    not_true_eq_false, decide_false,
    Bool.false_or] at hGood
  exact congrArg (fun s => s.node t.file) (hSame hGood)

end

/- An admitted step of an actor preserves the invariant. -/
theorem sound_step
    {op : ServerOp}
    {next : Resp op → ServerProg Bool}
    {env : Env}
    (hOp : p.progs a = .call op next)
    (hPre : t.pre a (t.viewOf p a) op)
    (hSucceed : t.updatesSucceed p a env = true)
    (hInOrder : t.inOrder p a env = true)
    (h : t.Sound p) :
    t.Sound (p.advance t.system a op next env) := by
  have hAdmits := event_of_admitted hOp hSucceed hInOrder
  cases op with
  | xcliHint xcli pid utilization =>
      exact sound_xcliHint hPre hAdmits h
  | createDirectories q =>
      exact
        sound_advance_of_same h rfl rfl
          (exec_node _ _ _ hPre)
  | removeAll q => exact hPre.elim
  | openTrunc q =>
      by_cases hFile : q.loc = t.file
      · exact sound_openTrunc hFile hAdmits h
      · refine
          sound_advance_of_same h ?_ rfl
            (exec_node _ _ _ (Ne.symm hFile))
        simp [HintView.after, hFile]
  | write q offset data =>
      by_cases hFile : q.loc = t.file
      · exact sound_write hFile hPre hAdmits h
      · refine
          sound_advance_of_same h ?_ rfl
            (exec_node _ _ _ (Ne.symm hFile))
        simp [HintView.after, hFile]
  | close q =>
      by_cases hFile : q.loc = t.file
      · exact sound_close hFile hAdmits h
      · exact
          sound_advance_of_same h rfl rfl
            (exec_node _ _ _ (Ne.symm hFile))
  | _ => exact sound_advance_of_same h rfl rfl rfl

end UpdatedTask

end Drex

------------------------------------------------------------
-- The Stores Agree
------------------------------------------------------------

namespace Drex

namespace UpdatedTask

variable (t : UpdatedTask)

/- The steps of updates that succeed. -/
def succeeding (p : TaskPool) (a : Actor) (env : Env) : Prop :=
  t.updatesSucceed p a env = true

/- The steps that also leave the last value in the file. -/
def ordered (p : TaskPool) (a : Actor) (env : Env) : Prop :=
  t.updatesSucceed p a env = true ∧
    t.inOrder p a env = true

variable {t} {store : Store} {p : TaskPool}

/- What is left of each actor keeps to the conditions. -/
theorem keeps_reach
    {admits : TaskPool → Actor → Env → Prop}
    (h : Core.Reach t.system admits (t.start store) p)
    (a : Actor) :
    t.Keeps a (p.progs a) (t.Done a) (t.viewOf p a) :=
  h.wp t.views (keeps_program t) a

/- The invariant holds in every pool reached in order. -/
theorem sound_reach
    (h : Core.Reach t.system t.ordered (t.start store) p) :
    t.Sound p := by
  induction h with
  | start =>
      exact
        { opened := fun _ hOpened => by cases hOpened
          hinted := fun _ hHinted => by cases hHinted
          hinter := fun _ _ hLast => by cases hLast
          stored := fun _ _ hLast => by cases hLast }
  | step hReach hOp hReady hAdmits ih =>
      have hPre :=
        hReach.pre_of_calls t.views (keeps_program t)
          ⟨_, hOp⟩
      exact sound_step hOp hPre hAdmits.1 hAdmits.2 ih
  | @ambient p shared hReach hAmbient ih =>
      unfold Sound
      change
        StoresSound t (t.viewOf p) (lastHint p.log)
          (shared.store.node t.file)
      rw [hAmbient.1]
      exact ih

/- A returned actor has done what it had to. -/
theorem done_of_returned
    {admits : TaskPool → Actor → Env → Prop}
    (h : Core.Reach t.system admits (t.start store) p)
    {a : Actor}
    {ok : Bool}
    (hReturned : returned? p a = some ok) :
    t.Done a ok (t.viewOf p a) := by
  have hKeeps := keeps_reach h a
  unfold returned? at hReturned
  cases hProg : p.progs a with
  | ret ok' =>
      rw [hProg] at hKeeps hReturned
      rw [← Option.some.inj hReturned]
      exact hKeeps
  | call op next =>
      rw [hProg] at hReturned
      cases hReturned

/- What is true of a finished pool. -/
theorem finished_iff :
    t.finished p = true ↔
      watches p = true ∧ returned? p .child = some true ∧
        ∀ j, j < t.updates.length →
          returned? p (.update j) = some true := by
  simp [finished, and_assoc]

/- No actor has the file open in the end. -/
theorem closed_of_finished
    {admits : TaskPool → Actor → Env → Prop}
    (h : Core.Reach t.system admits (t.start store) p)
    (hFinished : t.finished p = true)
    (a : Actor) :
    (t.viewOf p a).opened = false := by
  rcases finished_iff.mp hFinished with
    ⟨hWatches, hChild, hUpdates⟩
  cases a with
  | parent =>
      have hKeeps := keeps_reach h .parent
      unfold watches Core.Pool.next? at hWatches
      cases hProg : p.progs .parent with
      | ret ok =>
          rw [hProg] at hWatches
          cases hWatches
      | call op next =>
          rw [hProg] at hWatches hKeeps
          cases op <;> first | exact hKeeps.1 | cases hWatches
  | child => exact (done_of_returned h hChild).1
  | update j =>
      by_cases hJob : j < t.updates.length
      · exact (done_of_returned h (hUpdates j hJob)).1
      · have hAbsent :
            (t.start store).progs (.update j) = .ret true := by
          have hNone : t.updates[j]? = none :=
            List.getElem?_eq_none_iff.mpr (by omega)
          simp [start, Core.Pool.start, program, hNone]
          rfl
        have hReturned := h.returned hAbsent
        have hDone : returned? p (.update j) = some true := by
          simp [returned?, hReturned]
        exact (done_of_returned h hDone).1

end UpdatedTask

/-
  In every run whose updates succeed and which leaves the
  file, once the update that hinted last has written it, to
  actors with the same value, both stores agree in the end.
-/
theorem stores_agree
    {t : UpdatedTask}
    {store : Store}
    {p : TaskPool}
    (h : Core.Reach t.system t.ordered (t.start store) p) :
    t.StoresAgree p := by
  intro hFinished hSome
  have hSound := UpdatedTask.sound_reach h
  have hUpdates :=
    (UpdatedTask.finished_iff.mp hFinished).2.2
  have hDone :
      ∀ j, j < t.updates.length →
        (t.viewOf p (.update j)).hinted = true ∧
          (t.viewOf p (.update j)).written = true := by
    intro j hJob
    have hEnd :=
      UpdatedTask.done_of_returned h (hUpdates j hJob)
    exact hEnd.2 j rfl hJob rfl
  have hFirst := hDone 0 (List.length_pos_of_ne_nil hSome)
  have hHinted := hSound.hinted (.update 0) hFirst.1
  rcases Option.ne_none_iff_exists'.mp hHinted with
    ⟨⟨a, utilization⟩, hLast⟩
  refine ⟨a, utilization, hLast, ?_⟩
  rcases hSound.hinter a utilization hLast with
    ⟨⟨j, rfl, hJob⟩, _, hRange⟩
  rcases hSound.stored _ utilization hLast with
    hUnwritten | ⟨b, hOpened, _⟩ | ⟨data, hNode, hText⟩
  · rw [(hDone j hJob).2] at hUnwritten
    cases hUnwritten
  · rw [UpdatedTask.closed_of_finished h hFinished b]
      at hOpened
    cases hOpened
  · unfold UpdatedTask.inFile
    rw [hNode]
    exact storedUtilization_of_prefix hRange hText

end Drex

------------------------------------------------------------
-- Small Runs
------------------------------------------------------------

namespace Drex

namespace UpdatedTask

/- A task in the subdirectory `a` that starts at 30. -/
def small (updates : List Int) : UpdatedTask :=
  { root := smallRoot
    submitted :=
      { smallConfig "a" with
        xschedEnabled := true
        xschedUtilization := 30 }
    isThere := false
    wantPty := false
    execCommand := "true".toList
    updates := updates
    stays := by decide +kernel }

/- So many granted steps of one actor. -/
def turns (n : Nat) (a : Actor) : List (Actor × Env) :=
  List.replicate n (a, Env.granting)

/- The steps at which both stores are kept in order. -/
def orderly
    (t : UpdatedTask)
    (p : TaskPool)
    (a : Actor)
    (op : ServerOp)
    (env : Env) :
    Bool :=
  ready a op p.shared && t.updatesSucceed p a env &&
    t.inOrder p a env

/- The steps at which only the updates have to succeed. -/
def lenient
    (t : UpdatedTask)
    (p : TaskPool)
    (a : Actor)
    (op : ServerOp)
    (env : Env) :
    Bool :=
  ready a op p.shared && t.updatesSucceed p a env

/- All have finished with another value in the file. -/
def disagreesIn (t : UpdatedTask) (p : TaskPool) : Bool :=
  t.finished p && decide (t.updates ≠ []) &&
    decide
      ((lastHint p.log).map Prod.snd ≠ t.inFile p.shared)

theorem not_storesAgree
    {t : UpdatedTask}
    {p : TaskPool}
    (h : t.disagreesIn p = true) :
    ¬ t.StoresAgree p := by
  simp only [disagreesIn, Bool.and_eq_true,
    decide_eq_true_eq] at h
  intro hAgree
  rcases hAgree h.1.1 h.1.2 with
    ⟨a, utilization, hLast, hFile⟩
  apply h.2
  rw [hLast, hFile]
  rfl

/- Some run of succeeding updates breaks the agreement. -/
def Disagrees (t : UpdatedTask) : Prop :=
  ∃ p,
    Core.Reach t.system t.succeeding (t.start smallStore) p ∧
      ¬ t.StoresAgree p

theorem disagrees_of_any
    {t : UpdatedTask}
    (schedule : List (Actor × Env))
    (h :
      ((t.start smallStore).runChecked t.system t.lenient
        schedule).any t.disagreesIn = true) :
    t.Disagrees := by
  have hCheck :
      ∀ p a op env, t.lenient p a op env = true →
        t.system.ready a op p.shared ∧
          t.succeeding p a env := by
    intro p a op env hPass
    unfold lenient at hPass
    rw [Bool.and_eq_true] at hPass
    exact hPass
  rcases Core.reach_of_any hCheck h with
    ⟨p, hReach, hDisagrees⟩
  exact ⟨p, hReach, not_storesAgree hDisagrees⟩

end UpdatedTask

/- Two updates in turn, after the child has started. -/
theorem stores_agree_inTurn :
    ∃ p,
      (UpdatedTask.small [50, 80]).finished p = true ∧
        (UpdatedTask.small [50, 80]).StoresAgree p := by
  have hCheck :
      ∀ p a op env,
        (UpdatedTask.small [50, 80]).orderly p a op env =
            true →
          (UpdatedTask.small [50, 80]).system.ready a op
              p.shared ∧
            (UpdatedTask.small [50, 80]).ordered p a env := by
    intro p a op env hPass
    unfold UpdatedTask.orderly at hPass
    rw [Bool.and_eq_true, Bool.and_eq_true] at hPass
    exact ⟨hPass.1.1, hPass.1.2, hPass.2⟩
  have hRun :
      (((UpdatedTask.small [50, 80]).start
          smallStore).runChecked
        (UpdatedTask.small [50, 80]).system
        (UpdatedTask.small [50, 80]).orderly
        (UpdatedTask.turns 15 .parent ++
          UpdatedTask.turns 15 .child ++
          UpdatedTask.turns 10 (.update 0) ++
          UpdatedTask.turns 10 (.update 1))).any
        (UpdatedTask.small [50, 80]).finished = true := by
    decide +kernel
  rcases Core.reach_of_any hCheck hRun with
    ⟨p, hReach, hFinished⟩
  exact ⟨p, hFinished, stores_agree hReach⟩

/-
  The child writes the first value over the one of an update,
  and the update that hinted first writes the file last.
-/
theorem lateWrites_disagree :
    (UpdatedTask.small [50]).Disagrees ∧
      (UpdatedTask.small [50, 80]).Disagrees := by
  constructor
  · exact
      UpdatedTask.disagrees_of_any
        (UpdatedTask.turns 15 .parent ++
          UpdatedTask.turns 10 (.update 0) ++
          UpdatedTask.turns 15 .child)
        (by decide +kernel)
  · exact
      UpdatedTask.disagrees_of_any
        (UpdatedTask.turns 15 .parent ++
          UpdatedTask.turns 15 .child ++
          UpdatedTask.turns 5 (.update 0) ++
          UpdatedTask.turns 10 (.update 1) ++
          UpdatedTask.turns 5 (.update 0))
        (by decide +kernel)

end Drex
