import Mathlib.Control.Basic
import Mathlib.Tactic.Common

/-
  Programs that call an environment.

  A `Prog` is a finite tree: it returns, or calls one
  operation and continues with the answer.  The operations
  carry no meaning of their own, so one program text can be
  run alone against a handler, judged against everything an
  environment may answer, or interleaved with others.

  Key definitions include:
    * `Prog`
    * `Prog.perform`
    * `Prog.run`
    * `Prog.Answers`
    * `Prog.wp`
    * `Prog.OpSpec`
    * `Prog.Performs`
    * `Prog.Runs`
    * `Prog.history`
    * `Prog.Follows`
    * `Prog.Finishes`
    * `Prog.Produces`
    * `Prog.recorded`

  The rules used by later proofs are:
    * `Prog.run_bind`
    * `Prog.wp_bind`
    * `Prog.wp_mono`
    * `Prog.wp_seq`
    * `Prog.wp_spec`
    * `Prog.wp_ite`
    * `Prog.wp_performs`
    * `Prog.runs_bind_iff`
    * `Prog.performs_bind_of_runs`
    * `Prog.wp_events`
    * `Prog.produces_bind`
    * `Prog.wp_recorded_history`
    * `Prog.wp_finishes`
    * `Prog.finishes_answers`
-/

------------------------------------------------------------
-- Programs
------------------------------------------------------------

namespace Drex

namespace Core

/-
  A program over the operations `Op`, where `Resp op` is the
  type of the answer to `op`.
-/
inductive Prog
    (Op : Type)
    (Resp : Op → Type)
    (α : Type) : Type
| ret (a : α)
| call (op : Op) (next : Resp op → Prog Op Resp α)

namespace Prog

variable {Op : Type} {Resp : Op → Type}
variable {α β γ : Type}

/- Continue a program with its result. -/
def bind
    (p : Prog Op Resp α)
    (f : α → Prog Op Resp β) :
    Prog Op Resp β :=
  match p with
  | .ret a => f a
  | .call op next => .call op (fun r => (next r).bind f)

/- Call one operation and return its answer. -/
def perform
    (op : Op) :
    Prog Op Resp (Resp op) :=
  .call op .ret

instance : Monad (Prog Op Resp) where
  pure := .ret
  bind := Prog.bind

theorem bind_assoc
    (p : Prog Op Resp α)
    (f : α → Prog Op Resp β)
    (g : β → Prog Op Resp γ) :
    (p.bind f).bind g = p.bind (fun a => (f a).bind g) := by
  induction p with
  | ret a => rfl
  | call op next ih =>
      simp only [bind]
      congr 1
      funext r
      exact ih r

theorem bind_ret
    (p : Prog Op Resp α) :
    p.bind .ret = p := by
  induction p with
  | ret a => rfl
  | call op next ih =>
      simp only [bind]
      congr 1
      funext r
      exact ih r

instance : LawfulMonad (Prog Op Resp) :=
  LawfulMonad.mk' _
    bind_ret (fun _ _ => rfl) bind_assoc

end Prog

end Core

end Drex

------------------------------------------------------------
-- Runs Against A Handler
------------------------------------------------------------

namespace Drex

namespace Core

namespace Prog

variable {Op : Type} {Resp : Op → Type}
variable {α β σ : Type}

/- Answer every operation and change the state. -/
abbrev Handler
    (Op : Type)
    (Resp : Op → Type)
    (σ : Type) :=
  (op : Op) → σ → Resp op × σ

/- Run a program alone against a handler. -/
def run
    (h : Handler Op Resp σ) :
    Prog Op Resp α → σ → α × σ
| .ret a, s => (a, s)
| .call op next, s =>
    run h (next (h op s).1) (h op s).2

@[simp] theorem run_pure
    (h : Handler Op Resp σ)
    (a : α)
    (s : σ) :
    run h (pure a) s = (a, s) :=
  rfl

@[simp] theorem run_perform
    (h : Handler Op Resp σ)
    (op : Op)
    (s : σ) :
    run h (perform op) s = h op s :=
  rfl

/- A sequence runs its parts one after the other. -/
@[simp] theorem run_bind
    (h : Handler Op Resp σ)
    (p : Prog Op Resp α)
    (f : α → Prog Op Resp β)
    (s : σ) :
    run h (p >>= f) s =
      run h (f (run h p s).1) (run h p s).2 := by
  induction p generalizing s with
  | ret a => rfl
  | call op next ih => exact ih (h op s).1 (h op s).2

end Prog

end Core

end Drex

------------------------------------------------------------
-- Weakest Preconditions
------------------------------------------------------------

namespace Drex

namespace Core

namespace Prog

variable {Op : Type} {Resp : Op → Type} {G : Type}
variable {α β : Type}

/-
  What the environment may answer: from the view `g`, the
  operation may be answered by `r`, and the view is `g'`
  afterwards.
-/
abbrev Answers
    (Op : Type)
    (Resp : Op → Type)
    (G : Type) :=
  G → (op : Op) → Resp op → G → Prop

/-
  Whatever the environment answers, every operation is
  called in a view that satisfies `pre`, and the result
  satisfies `Q`.
-/
def wp
    (A : Answers Op Resp G)
    (pre : G → Op → Prop)
    (p : Prog Op Resp α)
    (Q : α → G → Prop)
    (g : G) : Prop :=
  match p with
  | .ret a => Q a g
  | .call op next =>
      pre g op ∧
        ∀ r g', A g op r g' → wp A pre (next r) Q g'

@[simp] theorem wp_pure
    (A : Answers Op Resp G)
    (pre : G → Op → Prop)
    (a : α)
    (Q : α → G → Prop)
    (g : G) :
    wp A pre (pure a) Q g ↔ Q a g :=
  Iff.rfl

@[simp] theorem wp_perform
    (A : Answers Op Resp G)
    (pre : G → Op → Prop)
    (op : Op)
    (Q : Resp op → G → Prop)
    (g : G) :
    wp A pre (perform op) Q g ↔
      pre g op ∧ ∀ r g', A g op r g' → Q r g' :=
  Iff.rfl

/- The sequence rule. -/
@[simp] theorem wp_bind
    (A : Answers Op Resp G)
    (pre : G → Op → Prop)
    (p : Prog Op Resp α)
    (f : α → Prog Op Resp β)
    (Q : β → G → Prop)
    (g : G) :
    wp A pre (p >>= f) Q g ↔
      wp A pre p (fun a => wp A pre (f a) Q) g := by
  induction p generalizing g with
  | ret a => exact Iff.rfl
  | call op next ih =>
      change
        (pre g op ∧ ∀ r g', A g op r g' →
          wp A pre (next r >>= f) Q g') ↔ _
      simp only [ih, wp]

/- The rule of an operation with what follows it. -/
theorem wp_call_bind
    {A : Answers Op Resp G}
    {pre : G → Op → Prop}
    {op : Op}
    {f : Resp op → Prog Op Resp β}
    {Q : β → G → Prop}
    {g : G} :
    wp A pre (perform op >>= f) Q g ↔
      pre g op ∧
        ∀ r g', A g op r g' → wp A pre (f r) Q g' :=
  Iff.rfl

/- The consequence rule. -/
theorem wp_mono
    {A : Answers Op Resp G}
    {pre : G → Op → Prop}
    {p : Prog Op Resp α}
    {Q Q' : α → G → Prop}
    {g : G}
    (hQ : ∀ a g, Q a g → Q' a g)
    (h : wp A pre p Q g) :
    wp A pre p Q' g := by
  induction p generalizing g with
  | ret a => exact hQ a g h
  | call op next ih =>
      exact ⟨h.1, fun r g' hA => ih r (h.2 r g' hA)⟩

/- The sequence rule, part by part. -/
theorem wp_seq
    {A : Answers Op Resp G}
    {pre : G → Op → Prop}
    {p : Prog Op Resp α}
    {f : α → Prog Op Resp β}
    {Q : α → G → Prop}
    {Q' : β → G → Prop}
    {g : G}
    (hFirst : wp A pre p Q g)
    (hNext : ∀ a g, Q a g → wp A pre (f a) Q' g) :
    wp A pre (p >>= f) Q' g := by
  rw [wp_bind]
  exact wp_mono hNext hFirst

/-
  From every view that satisfies `P` the operation may be
  called, and every answer leads to a view that satisfies
  `Q`.
-/
def OpSpec
    (A : Answers Op Resp G)
    (pre : G → Op → Prop)
    (P : G → Prop)
    (op : Op)
    (Q : Resp op → G → Prop) : Prop :=
  ∀ g, P g → pre g op ∧ ∀ r g', A g op r g' → Q r g'

/- The rule of an operation, from what is known of it. -/
theorem wp_spec
    {A : Answers Op Resp G}
    {pre : G → Op → Prop}
    {P : G → Prop}
    {op : Op}
    {Q : Resp op → G → Prop}
    {f : Resp op → Prog Op Resp β}
    {Q' : β → G → Prop}
    {g : G}
    (hSpec : OpSpec A pre P op Q)
    (h : P g)
    (hNext : ∀ r g', Q r g' → wp A pre (f r) Q' g') :
    wp A pre (perform op >>= f) Q' g := by
  refine ⟨(hSpec g h).1, ?_⟩
  intro r g' hAnswer
  exact hNext r g' ((hSpec g h).2 r g' hAnswer)

/- The rule of a branch. -/
theorem wp_ite
    {A : Answers Op Resp G}
    {pre : G → Op → Prop}
    {c : Prop}
    [Decidable c]
    {p q : Prog Op Resp α}
    {Q : α → G → Prop}
    {g : G}
    (hThen : c → wp A pre p Q g)
    (hElse : ¬ c → wp A pre q Q g) :
    wp A pre (if c then p else q) Q g := by
  by_cases h : c
  · rw [if_pos h]
    exact hThen h
  · rw [if_neg h]
    exact hElse h

end Prog

end Core

end Drex

------------------------------------------------------------
-- Operations And Results Of One Program
------------------------------------------------------------

namespace Drex

namespace Core

namespace Prog

variable {Op : Type} {Resp : Op → Type} {G : Type}
variable {α β : Type}

/- Some answers lead the program to call `target`. -/
inductive Performs
    (A : Answers Op Resp G)
    (target : Op) :
    G → Prog Op Resp α → Prop
| here {g : G} {next : Resp target → Prog Op Resp α} :
    Performs A target g (.call target next)
| later
    {g g' : G}
    {op : Op}
    {next : Resp op → Prog Op Resp α}
    {r : Resp op}
    (hAnswer : A g op r g')
    (hNext : Performs A target g' (next r)) :
    Performs A target g (.call op next)

/- One answered operation. -/
abbrev Event
    (Op : Type)
    (Resp : Op → Type) :=
  (op : Op) × Resp op

/-
  The program returns `a` after the answered operations of
  the trace.
-/
inductive Runs
    (A : Answers Op Resp G) :
    G → Prog Op Resp α → List (Event Op Resp) → α →
      G → Prop
| ret (g : G) (a : α) :
    Runs A g (.ret a) [] a g
| call
    {g g' g'' : G}
    {op : Op}
    {next : Resp op → Prog Op Resp α}
    {r : Resp op}
    {trace : List (Event Op Resp)}
    {a : α}
    (hAnswer : A g op r g')
    (hNext : Runs A g' (next r) trace a g'') :
    Runs A g (.call op next) (⟨op, r⟩ :: trace) a g''

/- Every operation a program calls meets its precondition. -/
theorem wp_performs
    {A : Answers Op Resp G}
    {pre : G → Op → Prop}
    {p : Prog Op Resp α}
    {Q : α → G → Prop}
    {g : G}
    {target : Op}
    (hWp : wp A pre p Q g)
    (h : Performs A target g p) :
    ∃ g', pre g' target := by
  induction h with
  | here => exact ⟨_, hWp.1⟩
  | later hAnswer hNext ih =>
      exact ih (hWp.2 _ _ hAnswer)

@[simp] theorem performs_perform
    {A : Answers Op Resp G}
    {op : Op}
    {g : G} :
    Performs A op g (perform op) :=
  .here

/- An operation of the first part is one of the sequence. -/
theorem performs_bind_left
    {A : Answers Op Resp G}
    {p : Prog Op Resp α}
    {f : α → Prog Op Resp β}
    {g : G}
    {target : Op}
    (h : Performs A target g p) :
    Performs A target g (p >>= f) := by
  induction h with
  | here => exact .here
  | later hAnswer hNext ih => exact .later hAnswer ih

/- An operation called after one that was answered. -/
theorem performs_call
    {A : Answers Op Resp G}
    {op target : Op}
    {f : Resp op → Prog Op Resp β}
    {g g' : G}
    {r : Resp op}
    (hAnswer : A g op r g')
    (h : Performs A target g' (f r)) :
    Performs A target g (perform op >>= f) :=
  .later hAnswer h

/-
  An operation called after the first part has returned is
  one of the sequence.
-/
theorem performs_bind_of_runs
    {A : Answers Op Resp G}
    {p : Prog Op Resp α}
    {f : α → Prog Op Resp β}
    {g g' : G}
    {trace : List (Event Op Resp)}
    {a : α}
    {target : Op}
    (hRuns : Runs A g p trace a g')
    (h : Performs A target g' (f a)) :
    Performs A target g (p >>= f) := by
  induction hRuns with
  | ret g a => exact h
  | call hAnswer hNext ih => exact .later hAnswer (ih h)

/- A sequence runs by running its parts. -/
theorem runs_bind_iff
    {A : Answers Op Resp G}
    {p : Prog Op Resp α}
    {f : α → Prog Op Resp β}
    {g g' : G}
    {trace : List (Event Op Resp)}
    {b : β} :
    Runs A g (p >>= f) trace b g' ↔
      ∃ first a mid second,
        trace = first ++ second ∧
          Runs A g p first a mid ∧
            Runs A mid (f a) second b g' := by
  constructor
  · intro h
    induction p generalizing g trace with
    | ret a => exact ⟨[], a, g, trace, rfl, .ret g a, h⟩
    | call op next ih =>
        cases h with
        | call hAnswer hNext =>
            rcases ih _ hNext with
              ⟨first, a, mid, second, rfl, hFirst, hSecond⟩
            exact
              ⟨_ :: first, a, mid, second, rfl,
                .call hAnswer hFirst, hSecond⟩
  · rintro ⟨first, a, mid, second, rfl, hFirst, hSecond⟩
    induction hFirst with
    | ret g a => exact hSecond
    | call hAnswer hNext ih =>
        exact .call hAnswer (ih hSecond)

theorem runs_pure_iff
    {A : Answers Op Resp G}
    {g g' : G}
    {a b : α}
    {trace : List (Event Op Resp)} :
    Runs A g (pure a) trace b g' ↔
      trace = [] ∧ b = a ∧ g' = g := by
  constructor
  · intro h
    cases h
    exact ⟨rfl, rfl, rfl⟩
  · rintro ⟨rfl, rfl, rfl⟩
    exact .ret _ _

theorem runs_perform_iff
    {A : Answers Op Resp G}
    {g g' : G}
    {op : Op}
    {r : Resp op}
    {trace : List (Event Op Resp)} :
    Runs A g (perform op) trace r g' ↔
      trace = [⟨op, r⟩] ∧ A g op r g' := by
  constructor
  · intro h
    cases h with
    | call hAnswer hNext =>
        cases hNext
        exact ⟨rfl, hAnswer⟩
  · rintro ⟨rfl, hAnswer⟩
    exact .call hAnswer (.ret _ _)

/- A completed run satisfies the postcondition. -/
theorem wp_runs
    {A : Answers Op Resp G}
    {pre : G → Op → Prop}
    {p : Prog Op Resp α}
    {Q : α → G → Prop}
    {g g' : G}
    {trace : List (Event Op Resp)}
    {a : α}
    (hWp : wp A pre p Q g)
    (h : Runs A g p trace a g') :
    Q a g' := by
  induction h with
  | ret g a => exact hWp
  | call hAnswer hNext ih =>
      exact ih (hWp.2 _ _ hAnswer)

/- Every operation of a run meets its precondition. -/
theorem wp_events
    {A : Answers Op Resp G}
    {pre : G → Op → Prop}
    {p : Prog Op Resp α}
    {Q : α → G → Prop}
    {g g' : G}
    {trace : List (Event Op Resp)}
    {a : α}
    (hWp : wp A pre p Q g)
    (h : Runs A g p trace a g') :
    ∀ e ∈ trace, ∃ mid, pre mid e.1 := by
  induction h with
  | ret g a => exact fun _ hMem => nomatch hMem
  | call hAnswer hNext ih =>
      intro e hMem
      rcases List.mem_cons.mp hMem with rfl | hMem
      · exact ⟨_, hWp.1⟩
      · exact ih (hWp.2 _ _ hAnswer) e hMem

/- The history of a run against a handler. -/
def history
    (h : Handler Op Resp G) :
    Prog Op Resp α → G → List (Event Op Resp)
| .ret _, _ => []
| .call op next, g =>
    ⟨op, (h op g).1⟩ ::
      history h (next (h op g).1) (h op g).2

/- The handler only gives allowed answers. -/
def Follows
    (A : Answers Op Resp G)
    (h : Handler Op Resp G) : Prop :=
  ∀ op g, A g op (h op g).1 (h op g).2

/- Running against such a handler is one of the runs. -/
theorem runs_history
    {A : Answers Op Resp G}
    {h : Handler Op Resp G}
    (hFollows : Follows A h)
    (p : Prog Op Resp α)
    (g : G) :
    Runs A g p (history h p g) (run h p g).1 (run h p g).2 := by
  induction p generalizing g with
  | ret a => exact .ret g a
  | call op next ih =>
      exact .call (hFollows op g) (ih (h op g).1 (h op g).2)

theorem runs_run
    {A : Answers Op Resp G}
    {h : Handler Op Resp G}
    (hFollows : Follows A h)
    (p : Prog Op Resp α)
    (g : G) :
    ∃ trace, Runs A g p trace (run h p g).1 (run h p g).2 :=
  ⟨_, runs_history hFollows p g⟩

end Prog

end Core

end Drex

------------------------------------------------------------
-- Histories
------------------------------------------------------------

namespace Drex

namespace Core

namespace Prog

variable {Op : Type} {Resp : Op → Type}
variable {α β : Type}
variable {allowed : (op : Op) → Resp op → Prop}

/- The environment keeps no view of its own. -/
def allowing
    (allowed : (op : Op) → Resp op → Prop) :
    Answers Op Resp Unit :=
  fun _ op r _ => allowed op r

/- The view is what was called and answered so far. -/
def recorded
    (allowed : (op : Op) → Resp op → Prop) :
    Answers Op Resp (List (Event Op Resp)) :=
  fun g op r g' => allowed op r ∧ g' = g ++ [⟨op, r⟩]

/- The program returns after allowed answers. -/
abbrev Finishes
    (allowed : (op : Op) → Resp op → Prop)
    (p : Prog Op Resp α)
    (trace : List (Event Op Resp))
    (a : α) : Prop :=
  Runs (allowing allowed) () p trace a ()

/- A sequence finishes by finishing its parts. -/
theorem finishes_bind_iff
    {p : Prog Op Resp α}
    {f : α → Prog Op Resp β}
    {trace : List (Event Op Resp)}
    {b : β} :
    Finishes allowed (p >>= f) trace b ↔
      ∃ first a second, trace = first ++ second ∧
        Finishes allowed p first a ∧
          Finishes allowed (f a) second b := by
  unfold Finishes
  rw [runs_bind_iff]
  constructor
  · rintro ⟨first, a, mid, second, hTrace, hFirst, hSecond⟩
    exact ⟨first, a, second, hTrace, hFirst, hSecond⟩
  · rintro ⟨first, a, second, hTrace, hFirst, hSecond⟩
    exact ⟨first, a, (), second, hTrace, hFirst, hSecond⟩

/- Running against fixed answers is a finished run. -/
theorem finishes_answers
    (answers : (op : Op) → Resp op)
    (hAnswers : ∀ op, allowed op (answers op))
    (p : Prog Op Resp α)
    (before : List (Event Op Resp)) :
    ∃ trace,
      (run
        (fun op trace =>
          (answers op, trace ++ [⟨op, answers op⟩]))
        p before).2 = before ++ trace ∧
      Finishes allowed p trace
        (run
          (fun op trace =>
            (answers op, trace ++ [⟨op, answers op⟩]))
          p before).1 := by
  induction p generalizing before with
  | ret a =>
      exact ⟨[], (List.append_nil before).symm, .ret () a⟩
  | call op next ih =>
      rcases
          ih (answers op) (before ++ [⟨op, answers op⟩])
        with ⟨trace, hState, hRun⟩
      refine ⟨⟨op, answers op⟩ :: trace, ?_, ?_⟩
      · rw [List.append_cons]
        exact hState
      · exact .call (hAnswers op) hRun

/-
  What holds of the history and the result of every finished
  run of a program.
-/
def Produces
    (allowed : (op : Op) → Resp op → Prop)
    (p : Prog Op Resp α)
    (Q : α → List (Event Op Resp) → Prop) : Prop :=
  ∀ trace a, Finishes allowed p trace a → Q a trace

theorem produces_pure
    {a : α}
    {Q : α → List (Event Op Resp) → Prop}
    (h : Q a []) :
    Produces allowed (pure a) Q := by
  intro trace b hRun
  rcases runs_pure_iff.mp hRun with ⟨rfl, rfl, _⟩
  exact h

/- The sequence rule of histories. -/
theorem produces_bind
    {p : Prog Op Resp α}
    {f : α → Prog Op Resp β}
    {Q : α → List (Event Op Resp) → Prop}
    {Q' : β → List (Event Op Resp) → Prop}
    (hFirst : Produces allowed p Q)
    (hNext :
      ∀ a first, Q a first →
        Produces allowed (f a)
          (fun b second => Q' b (first ++ second))) :
    Produces allowed (p >>= f) Q' := by
  intro trace b hRun
  rcases finishes_bind_iff.mp hRun with
    ⟨first, a, second, rfl, hRunFirst, hRunSecond⟩
  exact
    hNext a first (hFirst first a hRunFirst) second b
      hRunSecond

/- An operation and what follows it. -/
theorem produces_call
    {op : Op}
    {f : Resp op → Prog Op Resp β}
    {Q : β → List (Event Op Resp) → Prop}
    (hNext :
      ∀ r, allowed op r →
        Produces allowed (f r)
          (fun b second => Q b (⟨op, r⟩ :: second))) :
    Produces allowed (perform op >>= f) Q := by
  intro trace b hRun
  cases hRun with
  | call hAnswer hRest => exact hNext _ hAnswer _ _ hRest

theorem produces_mono
    {p : Prog Op Resp α}
    {Q Q' : α → List (Event Op Resp) → Prop}
    (hQ : ∀ a trace, Q a trace → Q' a trace)
    (h : Produces allowed p Q) :
    Produces allowed p Q' :=
  fun trace a hRun => hQ a trace (h trace a hRun)

/- A finished run, with its history. -/
theorem runs_recorded
    {p : Prog Op Resp α}
    {trace : List (Event Op Resp)}
    {a : α}
    (h : Finishes allowed p trace a)
    (g : List (Event Op Resp)) :
    Runs (recorded allowed) g p trace a (g ++ trace) := by
  induction trace generalizing p g with
  | nil =>
      cases h
      rw [List.append_nil]
      exact .ret g a
  | cons e trace ih =>
      cases h with
      | call hAnswer hNext =>
          rw [List.append_cons]
          exact .call ⟨hAnswer, rfl⟩ (ih hNext _)

/- What holds of every history holds of a finished run. -/
theorem wp_finishes
    {pre : List (Event Op Resp) → Op → Prop}
    {p : Prog Op Resp α}
    {Q : α → List (Event Op Resp) → Prop}
    {trace : List (Event Op Resp)}
    {a : α}
    (hWp : wp (recorded allowed) pre p Q [])
    (h : Finishes allowed p trace a) :
    Q a trace :=
  wp_runs hWp (runs_recorded h [])

/- The rule of one operation. -/
theorem wp_recorded_call
    (pre : List (Event Op Resp) → Op → Prop)
    (op : Op)
    (Q : Resp op → List (Event Op Resp) → Prop)
    (g : List (Event Op Resp)) :
    wp (recorded allowed) pre (perform op) Q g ↔
      pre g op ∧
        ∀ r, allowed op r → Q r (g ++ [⟨op, r⟩]) := by
  constructor
  · rintro ⟨hPre, hNext⟩
    exact ⟨hPre, fun r hAllowed => hNext r _ ⟨hAllowed, rfl⟩⟩
  · rintro ⟨hPre, hNext⟩
    refine ⟨hPre, ?_⟩
    rintro r g' ⟨hAllowed, rfl⟩
    exact hNext r hAllowed

/-
  A program whose operations all satisfy `P` adds only such
  operations to the history.
-/
theorem wp_recorded_history
    {P : Op → Prop}
    {p : Prog Op Resp α}
    {Q : α → List (Event Op Resp) → Prop}
    {g : List (Event Op Resp)}
    (h : wp (recorded allowed) (fun _ op => P op) p Q g) :
    wp (recorded allowed) (fun _ _ => True) p
      (fun a g' => Q a g' ∧
        ∃ trace, g' = g ++ trace ∧ ∀ e ∈ trace, P e.1) g := by
  induction p generalizing g with
  | ret a => exact ⟨h, [], by simp, by simp⟩
  | call op next ih =>
      refine ⟨trivial, ?_⟩
      rintro r g' ⟨hAllowed, rfl⟩
      have hNext := ih r (h.2 r _ ⟨hAllowed, rfl⟩)
      refine wp_mono ?_ hNext
      rintro a g' ⟨hQ, trace, rfl, hTrace⟩
      refine ⟨hQ, ⟨op, r⟩ :: trace, by simp, ?_⟩
      intro e hMem
      rcases List.mem_cons.mp hMem with rfl | hMem
      · exact h.1
      · exact hTrace e hMem

end Prog

end Core

end Drex
