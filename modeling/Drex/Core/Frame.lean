import Drex.Core.Prog

/-
  Two views of one program, and the operations that leave
  one of them alone.

  Key definitions include:
    * `Prog.OnlyCalls`
    * `Prog.lift`
    * `Prog.both`

  The rules used by later proofs are:
    * `Prog.onlyCalls_bind`
    * `Prog.onlyCalls_mono`
    * `Prog.onlyCalls_lift`
    * `Prog.wp_frame`
    * `Prog.wp_invariant`
    * `Prog.wp_of_onlyCalls`
    * `Prog.onlyCalls_of_mem`
    * `Prog.finishes_of_runs`
    * `Prog.finishes_call`
    * `Prog.runs_call`
    * `Prog.runs_rel`
    * `Prog.runs_frame`
    * `Prog.produces_of_onlyCalls`
-/

------------------------------------------------------------
-- The Operations A Program Can Call
------------------------------------------------------------

namespace Drex

namespace Core

namespace Prog

variable {Op : Type} {Resp : Op → Type}
variable {α β : Type}

/- Whatever is answered, only such operations are called. -/
def OnlyCalls
    (P : Op → Prop) :
    Prog Op Resp α → Prop
| .ret _ => True
| .call op next => P op ∧ ∀ r, OnlyCalls P (next r)

@[simp] theorem onlyCalls_pure
    {P : Op → Prop}
    (a : α) :
    OnlyCalls P (pure a : Prog Op Resp α) :=
  trivial

theorem onlyCalls_perform
    {P : Op → Prop}
    {op : Op}
    (h : P op) :
    OnlyCalls P (perform op : Prog Op Resp (Resp op)) :=
  ⟨h, fun _ => trivial⟩

/- A sequence calls what its parts call. -/
theorem onlyCalls_bind
    {P : Op → Prop}
    {p : Prog Op Resp α}
    {f : α → Prog Op Resp β}
    (hFirst : OnlyCalls P p)
    (hNext : ∀ a, OnlyCalls P (f a)) :
    OnlyCalls P (p >>= f) := by
  induction p with
  | ret a => exact hNext a
  | call op next ih =>
      exact ⟨hFirst.1, fun r => ih r (hFirst.2 r)⟩

/- An operation and what follows it. -/
theorem onlyCalls_call
    {P : Op → Prop}
    {op : Op}
    {f : Resp op → Prog Op Resp β}
    (hOp : P op)
    (hNext : ∀ r, OnlyCalls P (f r)) :
    OnlyCalls P (perform op >>= f) :=
  onlyCalls_bind (onlyCalls_perform hOp) hNext

theorem onlyCalls_ite
    {P : Op → Prop}
    {c : Prop}
    [Decidable c]
    {p q : Prog Op Resp α}
    (hThen : c → OnlyCalls P p)
    (hElse : ¬ c → OnlyCalls P q) :
    OnlyCalls P (if c then p else q) := by
  by_cases h : c
  · rw [if_pos h]
    exact hThen h
  · rw [if_neg h]
    exact hElse h

theorem onlyCalls_mono
    {P P' : Op → Prop}
    {p : Prog Op Resp α}
    (hMono : ∀ op, P op → P' op)
    (h : OnlyCalls P p) :
    OnlyCalls P' p := by
  induction p with
  | ret a => trivial
  | call op next ih =>
      exact ⟨hMono op h.1, fun r => ih r (h.2 r)⟩

end Prog

end Core

end Drex

------------------------------------------------------------
-- Programs Within Programs
------------------------------------------------------------

namespace Drex

namespace Core

namespace Prog

variable {Op Op' : Type}
variable {Resp : Op → Type} {Resp' : Op' → Type}
variable {α : Type}

/- Call the operations of a program as other operations. -/
def lift
    (into : Op → Op')
    (back : (op : Op) → Resp' (into op) → Resp op) :
    Prog Op Resp α → Prog Op' Resp' α
| .ret a => .ret a
| .call op next =>
    .call (into op) (fun r => lift into back (next (back op r)))

theorem onlyCalls_lift
    {into : Op → Op'}
    {back : (op : Op) → Resp' (into op) → Resp op}
    {P : Op' → Prop}
    (hInto : ∀ op, P (into op))
    (p : Prog Op Resp α) :
    OnlyCalls P (lift into back p) := by
  induction p with
  | ret a => trivial
  | call op next ih => exact ⟨hInto op, fun r => ih _⟩

end Prog

end Core

end Drex

------------------------------------------------------------
-- Framing
------------------------------------------------------------

namespace Drex

namespace Core

namespace Prog

variable {Op : Type} {Resp : Op → Type} {G H : Type}
variable {α : Type}

/- Two views side by side. -/
def both
    (A : Answers Op Resp G)
    (B : Answers Op Resp H) :
    Answers Op Resp (G × H) :=
  fun g op r g' => A g.1 op r g'.1 ∧ B g.2 op r g'.2

/-
  A program whose operations leave the second view alone is
  judged by the first view.
-/
theorem wp_frame
    {A : Answers Op Resp G}
    {B : Answers Op Resp H}
    {Idle : Op → Prop}
    {preA : G → Op → Prop}
    {pre : G × H → Op → Prop}
    {p : Prog Op Resp α}
    {Q : α → G → Prop}
    {g : G}
    {h : H}
    (hIdle :
      ∀ op r h', Idle op → B h op r h' → h' = h)
    (hPre :
      ∀ g' op, Idle op → preA g' op → pre (g', h) op)
    (hOnly : OnlyCalls Idle p)
    (hWp : wp A preA p Q g) :
    wp (both A B) pre p
      (fun a gh => Q a gh.1 ∧ gh.2 = h) (g, h) := by
  induction p generalizing g with
  | ret a => exact ⟨hWp, rfl⟩
  | call op next ih =>
      refine ⟨hPre g op hOnly.1 hWp.1, ?_⟩
      rintro r ⟨g', h'⟩ ⟨hFirst, hSecond⟩
      have hSame : h' = h := hIdle op r h' hOnly.1 hSecond
      subst hSame
      exact ih r (hOnly.2 r) (hWp.2 r g' hFirst)

/- What the operations of a program preserve it preserves. -/
theorem wp_invariant
    {A : Answers Op Resp G}
    {P : Op → Prop}
    {I : G → Prop}
    {pre : G → Op → Prop}
    {p : Prog Op Resp α}
    {g : G}
    (hKeeps :
      ∀ g op r g', P op → I g → A g op r g' → I g')
    (hPre : ∀ g op, P op → I g → pre g op)
    (hOnly : OnlyCalls P p)
    (hI : I g) :
    wp A pre p (fun _ g' => I g') g := by
  induction p generalizing g with
  | ret a => exact hI
  | call op next ih =>
      refine ⟨hPre g op hOnly.1 hI, ?_⟩
      intro r g' hAnswer
      exact
        ih r (hOnly.2 r)
          (hKeeps g op r g' hOnly.1 hI hAnswer)

/- A program that leaves its view alone. -/
theorem wp_of_onlyCalls
    {A : Answers Op Resp G}
    {Idle : Op → Prop}
    {pre : G → Op → Prop}
    {p : Prog Op Resp α}
    {g : G}
    (hIdle : ∀ op r g', Idle op → A g op r g' → g' = g)
    (hPre : ∀ op, Idle op → pre g op)
    (hOnly : OnlyCalls Idle p) :
    wp A pre p (fun _ g' => g' = g) g := by
  refine wp_invariant ?_ ?_ hOnly rfl
  · intro g₁ op r g' hOp hSame hAnswer
    rw [hSame] at hAnswer
    exact hIdle op r g' hOp hAnswer
  · intro g₁ op hOp hSame
    rw [hSame]
    exact hPre op hOp

end Prog

end Core

end Drex

------------------------------------------------------------
-- Finished Runs
------------------------------------------------------------

namespace Drex

namespace Core

namespace Prog

variable {Op : Type} {Resp : Op → Type} {G : Type}
variable {α γ : Type}
variable {A : Answers Op Resp G}
variable {p : Prog Op Resp α}
variable {g g' : G}
variable {trace : List (Event Op Resp)}
variable {a : α}

/- Every operation of a run is one the program can call. -/
theorem onlyCalls_of_mem
    {P : Op → Prop}
    (hOnly : OnlyCalls P p)
    (hRun : Runs A g p trace a g') :
    ∀ e ∈ trace, P e.1 := by
  induction hRun with
  | ret g a =>
      intro e hMem
      cases hMem
  | call hAnswer hNext ih =>
      intro e hMem
      rcases List.mem_cons.mp hMem with hHead | hTail
      · rw [hHead]
        exact hOnly.1
      · exact ih (hOnly.2 _) e hTail

/- A run is a finished run without its views. -/
theorem finishes_of_runs
    {allowed : (op : Op) → Resp op → Prop}
    (hAllowed :
      ∀ g op r g', A g op r g' → allowed op r)
    (hRun : Runs A g p trace a g') :
    Finishes allowed p trace a := by
  induction hRun with
  | ret g a => exact .ret () a
  | call hAnswer hNext ih =>
      exact .call (hAllowed _ _ _ _ hAnswer) ih

/- Each event of a finished run was allowed. -/
theorem finishes_allowed
    {allowed : (op : Op) → Resp op → Prop}
    (h : Finishes allowed p trace a) :
    ∀ e ∈ trace, allowed e.1 e.2 := by
  induction trace generalizing p with
  | nil => exact fun _ hMem => absurd hMem List.not_mem_nil
  | cons e trace ih =>
      cases h with
      | call hAnswer hNext =>
          intro e' hMem
          rcases List.mem_cons.mp hMem with rfl | hMem
          · exact hAnswer
          · exact ih hNext e' hMem

/- A finished run with one more operation before it. -/
theorem finishes_call
    {allowed : (op : Op) → Resp op → Prop}
    {op : Op}
    {next : Resp op → Prog Op Resp α}
    {r : Resp op}
    (hAllowed : allowed op r)
    (hNext : Finishes allowed (next r) trace a) :
    Finishes allowed (.call op next)
      (⟨op, r⟩ :: trace) a :=
  .call hAllowed hNext

/- A run with one more operation before it. -/
theorem runs_call
    {op : Op}
    {next : Resp op → Prog Op Resp α}
    {r : Resp op}
    (mid : G)
    (hAnswer : A g op r mid)
    (hNext : Runs A mid (next r) trace a g') :
    Runs A g (.call op next) (⟨op, r⟩ :: trace) a g' :=
  .call hAnswer hNext

/- What every operation preserves is preserved by a run. -/
theorem runs_rel
    {R : G → G → Prop}
    (hRefl : ∀ g, R g g)
    (hTrans : ∀ g g' g'', R g g' → R g' g'' → R g g'')
    (hStep :
      ∀ e ∈ trace, ∀ g g', A g e.1 e.2 g' → R g g')
    (hRun : Runs A g p trace a g') :
    R g g' := by
  induction hRun with
  | ret g a => exact hRefl g
  | call hAnswer hNext ih =>
      have hHead := hStep _ List.mem_cons_self _ _ hAnswer
      have hTail :=
        ih (fun e hMem =>
          hStep e (List.mem_cons_of_mem _ hMem))
      exact hTrans _ _ _ hHead hTail

/- What no operation of a run changes is unchanged. -/
theorem runs_frame
    {f : G → γ}
    (hStep :
      ∀ e ∈ trace, ∀ g g', A g e.1 e.2 g' → f g' = f g)
    (hRun : Runs A g p trace a g') :
    f g' = f g :=
  runs_rel (R := fun g g' => f g' = f g)
    (fun _ => rfl)
    (fun _ _ _ hFirst hSecond => hSecond.trans hFirst)
    hStep hRun

theorem produces_and
    {allowed : (op : Op) → Resp op → Prop}
    {Q Q' : α → List (Event Op Resp) → Prop}
    (hFirst : Produces allowed p Q)
    (hSecond : Produces allowed p Q') :
    Produces allowed p
      (fun a trace => Q a trace ∧ Q' a trace) :=
  fun trace a hRun =>
    ⟨hFirst trace a hRun, hSecond trace a hRun⟩

/- The history of a program has only its operations. -/
theorem produces_of_onlyCalls
    {allowed : (op : Op) → Resp op → Prop}
    {P : Op → Prop}
    (hOnly : OnlyCalls P p) :
    Produces allowed p
      (fun _ trace => ∀ e ∈ trace, P e.1) :=
  fun _ _ hRun => onlyCalls_of_mem hOnly hRun

end Prog

end Core

end Drex
