import Drex.Core.Frame
import Mathlib.Logic.Function.Basic

/-
  Interleavings of programs over one shared state.

  A `Pool` holds one program per identity, the shared state
  and the log of what was done.  One step lets one program
  call its next operation.  The rule `Reach.wp` carries a
  weakest precondition of every program, each judged from
  its own view of the pool, to every reachable pool.

  Key definitions include:
    * `System`
    * `Pool`
    * `Pool.advance`
    * `Reach`
    * `answering`
    * `View`
    * `tracked`
    * `trackView`

  Key theorems include:
    * `Reach.onlyCalls`
    * `Reach.performs`
    * `Reach.wp`
    * `Reach.pre_of_calls`
    * `reach_schedule`
    * `reach_of_any`
-/

------------------------------------------------------------
-- Pools
------------------------------------------------------------

namespace Drex

namespace Core

/-
  The meaning of the operations for interleaved programs.
  `ready` says when an operation can be taken, `exec` what
  it answers and does, and `ambient` how the shared state
  may change between two operations.
-/
structure System
    (Id Op : Type)
    (Resp : Op → Type)
    (Env σ : Type) where
  ready : Id → Op → σ → Prop
  exec : Id → (op : Op) → Env → σ → Resp op × σ
  ambient : σ → σ → Prop

/- Programs, their shared state, and what they did. -/
structure Pool
    (Id Op : Type)
    (Resp : Op → Type)
    (α σ : Type) where
  progs : Id → Prog Op Resp α
  shared : σ
  log : List (Id × Prog.Event Op Resp)

namespace Pool

variable {Id Op : Type} {Resp : Op → Type}
variable {Env α σ : Type}
variable [DecidableEq Id]

/- The pool before any step. -/
def start
    (progs : Id → Prog Op Resp α)
    (shared : σ) :
    Pool Id Op Resp α σ :=
  { progs := progs, shared := shared, log := [] }

/- Program `i` takes its next operation. -/
def advance
    (S : System Id Op Resp Env σ)
    (p : Pool Id Op Resp α σ)
    (i : Id)
    (op : Op)
    (next : Resp op → Prog Op Resp α)
    (env : Env) :
    Pool Id Op Resp α σ :=
  { progs :=
      Function.update p.progs i
        (next (S.exec i op env p.shared).1)
    shared := (S.exec i op env p.shared).2
    log := p.log ++ [(i, ⟨op, (S.exec i op env p.shared).1⟩)] }

/- Program `i` takes its next operation, if it has one. -/
def step
    (S : System Id Op Resp Env σ)
    (p : Pool Id Op Resp α σ)
    (i : Id)
    (env : Env) :
    Pool Id Op Resp α σ :=
  match p.progs i with
  | .ret _ => p
  | .call op next => p.advance S i op next env

/- Follow a schedule of programs and answers. -/
def runSchedule
    (S : System Id Op Resp Env σ) :
    List (Id × Env) →
      Pool Id Op Resp α σ → Pool Id Op Resp α σ
| [], p => p
| (i, env) :: rest, p => runSchedule S rest (p.step S i env)

/- The state before the call, with its next operation. -/
def Calls
    (p : Pool Id Op Resp α σ)
    (i : Id)
    (op : Op) : Prop :=
  ∃ next, p.progs i = .call op next

/- The next operation of program `i`, if it has one. -/
def next?
    (p : Pool Id Op Resp α σ)
    (i : Id) :
    Option Op :=
  match p.progs i with
  | .ret _ => none
  | .call op _ => some op

omit [DecidableEq Id] in
theorem calls_iff
    (p : Pool Id Op Resp α σ)
    (i : Id)
    (op : Op) :
    p.Calls i op ↔ p.next? i = some op := by
  unfold Calls next?
  cases hProg : p.progs i with
  | ret a => simp
  | call op' next =>
      constructor
      · rintro ⟨next', hNext⟩
        cases hNext
        rfl
      · intro h
        cases h
        exact ⟨next, rfl⟩

/- Program `i` performed `op` and was answered `r`. -/
def Did
    (p : Pool Id Op Resp α σ)
    (i : Id)
    (op : Op)
    (r : Resp op) : Prop :=
  (i, (⟨op, r⟩ : Prog.Event Op Resp)) ∈ p.log

@[simp] theorem advance_progs_same
    (S : System Id Op Resp Env σ)
    (p : Pool Id Op Resp α σ)
    (i : Id)
    (op : Op)
    (next : Resp op → Prog Op Resp α)
    (env : Env) :
    (p.advance S i op next env).progs i =
      next (S.exec i op env p.shared).1 := by
  simp [advance]

theorem advance_progs_other
    (S : System Id Op Resp Env σ)
    (p : Pool Id Op Resp α σ)
    {i j : Id}
    (op : Op)
    (next : Resp op → Prog Op Resp α)
    (env : Env)
    (hNe : j ≠ i) :
    (p.advance S i op next env).progs j = p.progs j := by
  simp [advance, hNe]

@[simp] theorem advance_shared
    (S : System Id Op Resp Env σ)
    (p : Pool Id Op Resp α σ)
    (i : Id)
    (op : Op)
    (next : Resp op → Prog Op Resp α)
    (env : Env) :
    (p.advance S i op next env).shared =
      (S.exec i op env p.shared).2 :=
  rfl

end Pool

end Core

end Drex

------------------------------------------------------------
-- Reachable Pools
------------------------------------------------------------

namespace Drex

namespace Core

variable {Id Op : Type} {Resp : Op → Type}
variable {Env α σ : Type}
variable [DecidableEq Id]

/-
  Pools reached by steps that all satisfy `admits`, which
  sees the pool before the step, the program and the answer.
-/
inductive Reach
    (S : System Id Op Resp Env σ)
    (admits : Pool Id Op Resp α σ → Id → Env → Prop)
    (p₀ : Pool Id Op Resp α σ) :
    Pool Id Op Resp α σ → Prop
| start : Reach S admits p₀ p₀
| step
    {p : Pool Id Op Resp α σ}
    {i : Id}
    {op : Op}
    {next : Resp op → Prog Op Resp α}
    {env : Env}
    (hReach : Reach S admits p₀ p)
    (hOp : p.progs i = .call op next)
    (hReady : S.ready i op p.shared)
    (hAdmits : admits p i env) :
    Reach S admits p₀ (p.advance S i op next env)
| ambient
    {p : Pool Id Op Resp α σ}
    {shared : σ}
    (hReach : Reach S admits p₀ p)
    (hAmbient : S.ambient p.shared shared) :
    Reach S admits p₀ { p with shared := shared }

/- Fewer steps are admitted by a stronger condition. -/
theorem Reach.mono
    {S : System Id Op Resp Env σ}
    {admits admits' :
      Pool Id Op Resp α σ → Id → Env → Prop}
    {p₀ p : Pool Id Op Resp α σ}
    (hAdmits : ∀ p i env, admits p i env → admits' p i env)
    (h : Reach S admits p₀ p) :
    Reach S admits' p₀ p := by
  induction h with
  | start => exact .start
  | step hReach hOp hReady hAdm ih =>
      exact .step ih hOp hReady (hAdmits _ _ _ hAdm)
  | ambient hReach hAmbient ih =>
      exact .ambient ih hAmbient

theorem Reach.trans
    {S : System Id Op Resp Env σ}
    {admits : Pool Id Op Resp α σ → Id → Env → Prop}
    {p₀ p₁ p : Pool Id Op Resp α σ}
    (hFirst : Reach S admits p₀ p₁)
    (hRest : Reach S admits p₁ p) :
    Reach S admits p₀ p := by
  induction hRest with
  | start => exact hFirst
  | step hReach hOp hReady hAdmits ih =>
      exact .step ih hOp hReady hAdmits
  | ambient hReach hAmbient ih => exact .ambient ih hAmbient

/- A program that has returned takes no more steps. -/
theorem Reach.returned
    {S : System Id Op Resp Env σ}
    {admits : Pool Id Op Resp α σ → Id → Env → Prop}
    {p₀ p : Pool Id Op Resp α σ}
    {i : Id}
    {a : α}
    (h : Reach S admits p₀ p)
    (hReturned : p₀.progs i = .ret a) :
    p.progs i = .ret a := by
  induction h with
  | start => exact hReturned
  | @step p j op next env hReach hOp hReady hAdmits ih =>
      have hNe : i ≠ j := by
        rintro rfl
        rw [ih] at hOp
        cases hOp
      rw [Pool.advance_progs_other S p op next env hNe]
      exact ih
  | ambient hReach hAmbient ih => exact ih

/- A schedule is followed part by part. -/
theorem runSchedule_append
    (S : System Id Op Resp Env σ)
    (first second : List (Id × Env))
    (p : Pool Id Op Resp α σ) :
    p.runSchedule S (first ++ second) =
      (p.runSchedule S first).runSchedule S second := by
  induction first generalizing p with
  | nil => rfl
  | cons e rest ih =>
      rcases e with ⟨i, env⟩
      exact ih (p.step S i env)

/- An admitted step leads to a reachable pool. -/
theorem reach_step
    {S : System Id Op Resp Env σ}
    {admits : Pool Id Op Resp α σ → Id → Env → Prop}
    {p₀ p : Pool Id Op Resp α σ}
    (hReady : ∀ i op s, S.ready i op s)
    {i : Id}
    {env : Env}
    (hAdmits : admits p i env)
    (h : Reach S admits p₀ p) :
    Reach S admits p₀ (p.step S i env) := by
  unfold Pool.step
  cases hProg : p.progs i with
  | ret a => exact h
  | call op next =>
      exact
        .step h hProg (hReady i op p.shared) hAdmits

/- A schedule only depends on what the operations do. -/
theorem runSchedule_congr
    {S S' : System Id Op Resp Env σ}
    (hExec : S.exec = S'.exec)
    (schedule : List (Id × Env))
    (p : Pool Id Op Resp α σ) :
    p.runSchedule S schedule = p.runSchedule S' schedule := by
  have hStep :
      ∀ (q : Pool Id Op Resp α σ) i env,
        q.step S i env = q.step S' i env := by
    intro q i env
    unfold Pool.step
    cases q.progs i with
    | ret a => rfl
    | call op next =>
        simp only [Pool.advance, hExec]
  induction schedule generalizing p with
  | nil => rfl
  | cons e rest ih =>
      rcases e with ⟨i, env⟩
      unfold Pool.runSchedule
      rw [hStep, ih]

/- A schedule of admitted steps leads to a reachable pool. -/
theorem reach_schedule
    {S : System Id Op Resp Env σ}
    {admits : Pool Id Op Resp α σ → Id → Env → Prop}
    {p₀ p : Pool Id Op Resp α σ}
    (hReady : ∀ i op s, S.ready i op s)
    (schedule : List (Id × Env))
    (hAdmits :
      ∀ q i env, (i, env) ∈ schedule → admits q i env)
    (h : Reach S admits p₀ p) :
    Reach S admits p₀ (p.runSchedule S schedule) := by
  induction schedule generalizing p with
  | nil => exact h
  | cons head rest ih =>
      rcases head with ⟨i, env⟩
      apply ih
      · intro q j env' hMem
        exact hAdmits q j env' (List.mem_cons_of_mem _ hMem)
      · exact
          reach_step hReady
            (hAdmits p i env List.mem_cons_self) h

end Core

end Drex

------------------------------------------------------------
-- The Operations Of A Run
------------------------------------------------------------

namespace Drex

namespace Core

variable {Id Op : Type} {Resp : Op → Type}
variable {Env α σ : Type}
variable [DecidableEq Id]

/- What no program can call is never done. -/
theorem Reach.onlyCalls
    {S : System Id Op Resp Env σ}
    {admits : Pool Id Op Resp α σ → Id → Env → Prop}
    {P : Op → Prop}
    {p₀ p : Pool Id Op Resp α σ}
    (hStart : ∀ i, Prog.OnlyCalls P (p₀.progs i))
    (hLog : ∀ e ∈ p₀.log, P e.2.1)
    (h : Reach S admits p₀ p) :
    (∀ i, Prog.OnlyCalls P (p.progs i)) ∧
      ∀ e ∈ p.log, P e.2.1 := by
  induction h with
  | start => exact ⟨hStart, hLog⟩
  | @step p i op next env hReach hOp hReady hAdmits ih =>
      rcases ih with ⟨hProgs, hDone⟩
      have hCall := hProgs i
      rw [hOp] at hCall
      constructor
      · intro j
        by_cases hEq : j = i
        · rw [hEq, Pool.advance_progs_same]
          exact hCall.2 _
        · rw [Pool.advance_progs_other S p op next env hEq]
          exact hProgs j
      · intro e hMem
        rcases List.mem_append.mp hMem with hOld | hNew
        · exact hDone e hOld
        · rw [List.mem_singleton.mp hNew]
          exact hCall.1
  | ambient hReach hAmbient ih => exact ih

/- What one program cannot call, it never will. -/
theorem Reach.onlyCalls_of
    {S : System Id Op Resp Env σ}
    {admits : Pool Id Op Resp α σ → Id → Env → Prop}
    {P : Op → Prop}
    {p₀ p : Pool Id Op Resp α σ}
    {i : Id}
    (hStart : Prog.OnlyCalls P (p₀.progs i))
    (h : Reach S admits p₀ p) :
    Prog.OnlyCalls P (p.progs i) := by
  induction h with
  | start => exact hStart
  | @step p j op next env hReach hOp hReady hAdmits ih =>
      by_cases hEq : i = j
      · subst hEq
        rw [hOp] at ih
        rw [Pool.advance_progs_same]
        exact ih.2 _
      · rw [Pool.advance_progs_other S p op next env hEq]
        exact ih
  | ambient hReach hAmbient ih => exact ih

/- The answers that one program can get in a pool. -/
def answering
    (S : System Id Op Resp Env σ)
    (i : Id) :
    Prog.Answers Op Resp σ :=
  fun s op r s' =>
    S.ready i op s ∧ ∃ env, S.exec i op env s = (r, s')

/-
  A program can be run on its own to what it can call, and
  its steps keep what they preserve of the shared state.
-/
theorem Reach.performs
    {S : System Id Op Resp Env σ}
    {p₀ p : Pool Id Op Resp α σ}
    {i : Id}
    {target : Op}
    {I : σ → Prop}
    (hKeeps :
      ∀ s op r s', I s → answering S i s op r s' → I s')
    (h : Reach S (fun _ _ _ => True) p₀ p)
    (hI : I p.shared)
    (hPerforms :
      Prog.Performs (answering S i) target p.shared
        (p.progs i)) :
    ∃ q, Reach S (fun _ _ _ => True) p₀ q ∧
      q.Calls i target ∧ I q.shared ∧
      ∀ j ≠ i, q.progs j = p.progs j := by
  generalize hShared : p.shared = s at hPerforms
  generalize hProg : p.progs i = prog at hPerforms
  induction hPerforms generalizing p with
  | here => exact ⟨p, h, ⟨_, hProg⟩, hI, fun _ _ => rfl⟩
  | @later s s' op next r hAnswer hNext ih =>
      rw [hShared] at hI
      have hI' := hKeeps s op r s' hI hAnswer
      rcases hAnswer with ⟨hReady, env, hExec⟩
      subst hShared
      have hStep : Reach S (fun _ _ _ => True) p₀
          (p.advance S i op next env) :=
        .step h hProg hReady trivial
      have hState :
          (p.advance S i op next env).shared = s' := by
        rw [Pool.advance_shared, hExec]
      have hRest :
          (p.advance S i op next env).progs i = next r := by
        rw [Pool.advance_progs_same, hExec]
      rw [← hState] at hI'
      rcases ih hStep hI' hState hRest with
        ⟨q, hQ, hCalls, hEnd, hOthers⟩
      refine ⟨q, hQ, hCalls, hEnd, ?_⟩
      intro j hNe
      rw [hOthers j hNe,
        Pool.advance_progs_other S p op next env hNe]

end Core

end Drex

------------------------------------------------------------
-- Local Views
------------------------------------------------------------

namespace Drex

namespace Core

variable {Id Op : Type} {Resp : Op → Type}
variable {Env α σ G : Type}
variable [DecidableEq Id]

/-
  What each program sees of the pool.  A step of a program
  moves its own view as `answers` allows and leaves the view
  of every other program alone.
-/
structure View
    (S : System Id Op Resp Env σ)
    (α : Type)
    (answers : Id → Prog.Answers Op Resp G) where
  of : Pool Id Op Resp α σ → Id → G
  own :
    ∀ (p : Pool Id Op Resp α σ) i op next env,
      answers i (of p i) op (S.exec i op env p.shared).1
        (of (p.advance S i op next env) i)
  other :
    ∀ (p : Pool Id Op Resp α σ) i j op next env,
      j ≠ i → of (p.advance S i op next env) j = of p j
  ambient :
    ∀ (p : Pool Id Op Resp α σ) shared j,
      S.ambient p.shared shared →
        of { p with shared := shared } j = of p j

/-
  A weakest precondition that holds of every program at the
  start holds of what is left of it in every reachable pool.
-/
theorem Reach.wp
    {S : System Id Op Resp Env σ}
    {admits : Pool Id Op Resp α σ → Id → Env → Prop}
    {answers : Id → Prog.Answers Op Resp G}
    (V : View S α answers)
    {pre : Id → G → Op → Prop}
    {Q : Id → α → G → Prop}
    {p₀ p : Pool Id Op Resp α σ}
    (hStart :
      ∀ i, Prog.wp (answers i) (pre i) (p₀.progs i) (Q i)
        (V.of p₀ i))
    (h : Reach S admits p₀ p) :
    ∀ i, Prog.wp (answers i) (pre i) (p.progs i) (Q i)
      (V.of p i) := by
  induction h with
  | start => exact hStart
  | @step p i op next env hReach hOp hReady hAdmits ih =>
      intro j
      by_cases hEq : j = i
      · subst hEq
        have hStep := ih j
        rw [hOp] at hStep
        rw [Pool.advance_progs_same]
        exact hStep.2 _ _ (V.own p j op next env)
      · rw [Pool.advance_progs_other S p op next env hEq,
          V.other p i j op next env hEq]
        exact ih j
  | ambient hReach hAmbient ih =>
      intro j
      rw [V.ambient _ _ j hAmbient]
      exact ih j

/- What `Reach.wp` says of the next operation. -/
theorem Reach.pre_of_calls
    {S : System Id Op Resp Env σ}
    {admits : Pool Id Op Resp α σ → Id → Env → Prop}
    {answers : Id → Prog.Answers Op Resp G}
    (V : View S α answers)
    {pre : Id → G → Op → Prop}
    {Q : Id → α → G → Prop}
    {p₀ p : Pool Id Op Resp α σ}
    (hStart :
      ∀ i, Prog.wp (answers i) (pre i) (p₀.progs i) (Q i)
        (V.of p₀ i))
    (h : Reach S admits p₀ p)
    {i : Id}
    {op : Op}
    (hCalls : p.Calls i op) :
    pre i (V.of p i) op := by
  rcases hCalls with ⟨next, hNext⟩
  have hWp := h.wp V hStart i
  rw [hNext] at hWp
  exact hWp.1

end Core

end Drex

------------------------------------------------------------
-- Views Computed From The Log
------------------------------------------------------------

namespace Drex

namespace Core

variable {Id Op : Type} {Resp : Op → Type}
variable {Env α σ G : Type}
variable [DecidableEq Id]

/- What program `i` called and was answered, in order. -/
def Pool.trace
    (p : Pool Id Op Resp α σ)
    (i : Id) :
    List (Prog.Event Op Resp) :=
  p.log.filterMap (fun e => if e.1 = i then some e.2 else none)

/- The next view is computed from the answer. -/
def tracked
    (after : G → (op : Op) → Resp op → G) :
    Prog.Answers Op Resp G :=
  fun g op r g' => g' = after g op r

/- The rule of one operation with what follows it. -/
theorem wp_tracked_call
    {β : Type}
    {after : G → (op : Op) → Resp op → G}
    {pre : G → Op → Prop}
    {op : Op}
    {f : Resp op → Prog Op Resp β}
    {Q : β → G → Prop}
    {g : G}
    (hPre : pre g op)
    (hNext :
      ∀ r, Prog.wp (tracked after) pre (f r) Q
        (after g op r)) :
    Prog.wp (tracked after) pre (Prog.perform op >>= f) Q
      g := by
  refine ⟨hPre, ?_⟩
  rintro r g' rfl
  exact hNext r

/- The view of each program is computed from its own log. -/
def trackView
    (S : System Id Op Resp Env σ)
    (α : Type)
    (after : G → (op : Op) → Resp op → G)
    (init : G) :
    View S α (fun _ : Id => tracked after) where
  of := fun p i =>
    (p.trace i).foldl (fun g e => after g e.1 e.2) init
  own := by
    intro p i op next env
    simp [tracked, Pool.trace, Pool.advance]
  other := by
    intro p i j op next env hNe
    simp [Pool.trace, Pool.advance, Ne.symm hNe]
  ambient := fun _ _ _ _ => rfl

end Core

end Drex

------------------------------------------------------------
-- Checked Schedules
------------------------------------------------------------

namespace Drex

namespace Core

variable {Id Op : Type} {Resp : Op → Type}
variable {Env α σ : Type}
variable [DecidableEq Id]

/- Follow a schedule while every step passes the check. -/
def Pool.runChecked
    (S : System Id Op Resp Env σ)
    (check : Pool Id Op Resp α σ → Id → Op → Env → Bool) :
    List (Id × Env) →
      Pool Id Op Resp α σ → Option (Pool Id Op Resp α σ)
| [], p => some p
| (i, env) :: rest, p =>
    match p.progs i with
    | .ret _ => none
    | .call op next =>
        if check p i op env then
          runChecked S check rest (p.advance S i op next env)
        else
          none

/- The steps that pass lead to a reachable pool. -/
theorem reach_runChecked
    {S : System Id Op Resp Env σ}
    {admits : Pool Id Op Resp α σ → Id → Env → Prop}
    {check : Pool Id Op Resp α σ → Id → Op → Env → Bool}
    {p₀ p q : Pool Id Op Resp α σ}
    {schedule : List (Id × Env)}
    (hCheck :
      ∀ p i op env, check p i op env = true →
        S.ready i op p.shared ∧ admits p i env)
    (h : Reach S admits p₀ p)
    (hRun : p.runChecked S check schedule = some q) :
    Reach S admits p₀ q := by
  induction schedule generalizing p with
  | nil =>
      rw [← Option.some.inj hRun]
      exact h
  | cons e rest ih =>
      rcases e with ⟨i, env⟩
      unfold Pool.runChecked at hRun
      cases hProg : p.progs i with
      | ret a =>
          rw [hProg] at hRun
          cases hRun
      | call op next =>
          simp only [hProg] at hRun
          by_cases hPass : check p i op env = true
          · rw [if_pos hPass] at hRun
            have hStep := hCheck p i op env hPass
            exact ih (.step h hProg hStep.1 hStep.2) hRun
          · rw [if_neg hPass] at hRun
            cases hRun

/- Some pool reached by checked steps is as wanted. -/
theorem reach_of_any
    {S : System Id Op Resp Env σ}
    {admits : Pool Id Op Resp α σ → Id → Env → Prop}
    {check : Pool Id Op Resp α σ → Id → Op → Env → Bool}
    {p₀ : Pool Id Op Resp α σ}
    {schedule : List (Id × Env)}
    {wanted : Pool Id Op Resp α σ → Bool}
    (hCheck :
      ∀ p i op env, check p i op env = true →
        S.ready i op p.shared ∧ admits p i env)
    (h :
      (p₀.runChecked S check schedule).any wanted = true) :
    ∃ q, Reach S admits p₀ q ∧ wanted q = true := by
  rcases (Option.any_eq_true _ _).mp h with
    ⟨q, hRun, hWanted⟩
  exact ⟨q, reach_runChecked hCheck .start hRun, hWanted⟩

end Core

end Drex
