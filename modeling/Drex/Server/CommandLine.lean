import Drex.Core.Shell
import Drex.Server.Sessions
import Mathlib.Data.List.TakeWhile

/-
  What the shell of a task makes of its command line.

  Key definitions include:
    * `cString`
    * `StdbufFound`

  Key theorems include:
    * `read_shellEscape`
    * `words_wrapped`
    * `shell_words_buildCommandForExecution`
-/

------------------------------------------------------------
-- Escaped Words
------------------------------------------------------------

namespace Drex

open Drex.Core (Shell.read Shell.step Shell.words)

/-
  Inside the quotes each character of the input is read as
  itself: a quote closes them, is read escaped, and reopens
  them.
-/
theorem read_escapeChar
    (c : Char)
    (word : Str)
    (done : List Str) :
    Shell.read (escapeChar c) ⟨.single, some word, done⟩ =
      some ⟨.single, some (word ++ [c]), done⟩ := by
  by_cases hQuote : c = '\''
  · subst hQuote
    rfl
  · have hEscape : escapeChar c = [c] := by
      simp [escapeChar, hQuote]
    rw [hEscape, Core.Shell.read_cons,
      Core.Shell.step_single hQuote]
    rfl

theorem read_escaped
    (input word : Str)
    (done : List Str) :
    Shell.read (input.flatMap escapeChar)
        ⟨.single, some word, done⟩ =
      some ⟨.single, some (word ++ input), done⟩ := by
  induction input generalizing word with
  | nil => simp
  | cons c input ih =>
      rw [List.flatMap_cons, Core.Shell.read_append,
        read_escapeChar, Option.bind_some, ih,
        List.append_assoc]
      rfl

/- An escaped text is read as that text. -/
theorem read_shellEscape
    (input : Str)
    (done : List Str) :
    Shell.read (shellEscape input) ⟨.plain, none, done⟩ =
      some ⟨.plain, some input, done⟩ := by
  have hOpen :
      Shell.step ⟨.plain, none, done⟩ '\'' =
        some ⟨.single, some [], done⟩ := rfl
  have hClose :
      Shell.step ⟨.single, some input, done⟩ '\'' =
        some ⟨.plain, some input, done⟩ := rfl
  unfold shellEscape
  rw [List.cons_append, Core.Shell.read_cons, hOpen,
    Option.bind_some, Core.Shell.read_append, read_escaped,
    Option.bind_some, List.nil_append, Core.Shell.read_cons,
    hClose]
  rfl

end Drex

------------------------------------------------------------
-- The Command Line
------------------------------------------------------------

namespace Drex

open Drex.Core (Shell.read Shell.words)

/- What a `const char *` argument passes of a text. -/
def cString (text : Str) : Str :=
  text.takeWhile (· ≠ '\x00')

theorem cString_eq_self
    {text : Str}
    (h : '\x00' ∉ text) :
    cString text = text := by
  unfold cString
  rw [List.takeWhile_eq_self_iff]
  intro c hMem
  have hNe : c ≠ '\x00' := by
    rintro rfl
    exact h hMem
  simpa using hNe

/- `FindCommandInPath` has found `stdbuf` there. -/
def StdbufFound (path : Str) : Prop :=
  path ≠ "<not found>".toList ∧
    path ≠ "<PATH unset>".toList

instance (path : Str) : Decidable (StdbufFound path) :=
  inferInstanceAs (Decidable (_ ∧ _))

/- The command line is read as the six words it names. -/
theorem words_wrapped (stdbufPath command : Str) :
    Shell.words
        (shellEscape stdbufPath ++
          " -oL -eL /bin/sh -c ".toList ++
            shellEscape command) =
      some [stdbufPath, "-oL".toList, "-eL".toList,
        "/bin/sh".toList, "-c".toList, command] := by
  have hOptions :
      Shell.read " -oL -eL /bin/sh -c ".toList
          ⟨.plain, some stdbufPath, []⟩ =
        some ⟨.plain, none,
          [stdbufPath, "-oL".toList, "-eL".toList,
            "/bin/sh".toList, "-c".toList]⟩ := rfl
  unfold Core.Shell.words
  rw [Core.Shell.read_append, Core.Shell.read_append,
    Core.Shell.start, read_shellEscape, Option.bind_some,
    hOptions, Option.bind_some, read_shellEscape]
  rfl

/- Escaping adds quotes and backslashes only. -/
theorem nul_not_mem_shellEscape
    {input : Str}
    (h : '\x00' ∉ input) :
    '\x00' ∉ shellEscape input := by
  simp only [shellEscape, List.mem_append, List.mem_cons,
    List.mem_flatMap, List.not_mem_nil]
  rintro ((hEq | ⟨c, hMem, hEscape⟩) | hEq | hNil)
  · exact absurd hEq (by decide)
  · unfold escapeChar at hEscape
    split at hEscape
    · exact absurd hEscape (by decide)
    · rw [List.mem_singleton] at hEscape
      exact h (hEscape ▸ hMem)
  · exact absurd hEq (by decide)
  · exact hNil

/- The text built once `stdbuf` was found. -/
theorem run_buildCommandForExecution
    {σ : Type}
    (handler : Core.Prog.Handler ServerOp Resp σ)
    (s : σ)
    (command : Str)
    (hFound :
      StdbufFound
        (handler (.findCommandInPath "stdbuf") s).1) :
    (Core.Prog.run handler
        (buildCommandForExecution command false) s).1 =
      shellEscape
          (handler (.findCommandInPath "stdbuf") s).1 ++
        " -oL -eL /bin/sh -c ".toList ++
          shellEscape command := by
  have hNot := not_or.mpr hFound
  unfold buildCommandForExecution
  rw [if_neg Bool.false_ne_true, Core.Prog.run_bind,
    Core.Prog.run_perform, if_neg hNot, Core.Prog.run_pure]

/-
  The shell reads the wrapped command line as `stdbuf` with
  its options and an inner shell, whose operand is what the
  shell gets where the command is not wrapped.
-/
theorem shell_words_buildCommandForExecution
    {σ : Type}
    (handler : Core.Prog.Handler ServerOp Resp σ)
    (s : σ)
    (command stdbufPath : Str)
    (hLookup :
      (handler (.findCommandInPath "stdbuf") s).1 =
        stdbufPath)
    (hFound : StdbufFound stdbufPath)
    (hPath : '\x00' ∉ stdbufPath)
    (hCommand : '\x00' ∉ command) :
    Shell.words
        (cString
          (Core.Prog.run handler
            (buildCommandForExecution command false) s).1) =
      some [stdbufPath, "-oL".toList, "-eL".toList,
        "/bin/sh".toList, "-c".toList, command] ∧
      cString
          (Core.Prog.run handler
            (buildCommandForExecution command true) s).1 =
        command := by
  subst hLookup
  constructor
  · have hOptions :
        '\x00' ∉ " -oL -eL /bin/sh -c ".toList := by
      decide
    rw [run_buildCommandForExecution handler s command
      hFound, cString_eq_self, words_wrapped]
    simp only [List.mem_append, not_or]
    exact
      ⟨⟨nul_not_mem_shellEscape hPath, hOptions⟩,
        nul_not_mem_shellEscape hCommand⟩
  · exact cString_eq_self hCommand

/- An environment that finds every command in one place. -/
def Env.finding (path : Str) : Env :=
  { Env.granting with
    answer := fun op =>
      match op with
      | .findCommandInPath _ => path
      | op => Env.granting.answer op }

/- A command and a path with a quote in each. -/
theorem shell_words_echo :
    Shell.words
        (cString
          (Core.Prog.run
            (fun op s =>
              ((Env.finding "/o'n/stdbuf".toList).answer op,
                s))
            (buildCommandForExecution "echo 'a'".toList false)
            ()).1) =
      some ["/o'n/stdbuf".toList, "-oL".toList,
        "-eL".toList, "/bin/sh".toList, "-c".toList,
        "echo 'a'".toList] :=
  (shell_words_buildCommandForExecution
    (fun op s =>
      ((Env.finding "/o'n/stdbuf".toList).answer op, s))
    () "echo 'a'".toList "/o'n/stdbuf".toList rfl
    (by decide) (by decide) (by decide)).1

end Drex
