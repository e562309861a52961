import Mathlib.Tactic.Common

/-
  The words of a shell command, by the quoting rules of the
  POSIX shell.

  The reader goes through the text one character at a time.
  It knows quoting, blanks and nothing else: a character
  that could start an operator, an expansion, a pattern or a
  comment is refused where it is not quoted.

  Key definitions include:
    * `Shell.Reader`
    * `Shell.step`
    * `Shell.words`

  Key theorems include:
    * `Shell.read_append`
    * `Shell.step_single`
-/

------------------------------------------------------------
-- The Reader
------------------------------------------------------------

namespace Drex

namespace Core

namespace Shell

/- How the next character is quoted. -/
inductive Mode
| plain
| escaped
| single
| double
| doubleEscaped
deriving DecidableEq, Repr

/- The words that ended, and the one being read, if any. -/
structure Reader where
  mode : Mode
  word : Option (List Char)
  words : List (List Char)
deriving DecidableEq, Repr

/- A blank between words. -/
def isBlank (c : Char) : Bool :=
  c = ' ' || c = '\t'

/-
  The characters that must be quoted, or may have to be, to
  stand for themselves.
-/
def needsQuoting (c : Char) : Bool :=
  "|&;<>()$`\\\"'\n*?[]#~=%!\x7b\x7d".toList.contains c

/- The characters a backslash keeps in double quotes. -/
def keptInDouble (c : Char) : Bool :=
  "$`\"\\".toList.contains c

namespace Reader

/- The word being read has one more character. -/
def put (r : Reader) (c : Char) : Reader :=
  { r with word := some (r.word.getD [] ++ [c]) }

/- A quote starts a word even if nothing is quoted. -/
def quote (r : Reader) (mode : Mode) : Reader :=
  { r with mode := mode, word := some (r.word.getD []) }

/- A blank ends the word being read. -/
def close (r : Reader) : Reader :=
  { r with word := none, words := r.words ++ r.word.toList }

end Reader

/- Read one character. -/
def step (r : Reader) (c : Char) : Option Reader :=
  match r.mode with
  | .plain =>
      if c = '\'' then
        some (r.quote .single)
      else if c = '"' then
        some (r.quote .double)
      else if c = '\\' then
        some { r with mode := .escaped }
      else if isBlank c then
        some r.close
      else if needsQuoting c then
        none
      else
        some (r.put c)
  | .escaped =>
      -- An escaped newline continues the line.
      if c = '\n' then
        some { r with mode := .plain }
      else
        some ({ r with mode := .plain }.put c)
  | .single =>
      if c = '\'' then
        some { r with mode := .plain }
      else
        some (r.put c)
  | .double =>
      if c = '"' then
        some { r with mode := .plain }
      else if c = '\\' then
        some { r with mode := .doubleEscaped }
      else if keptInDouble c then
        none
      else
        some (r.put c)
  | .doubleEscaped =>
      if c = '\n' then
        some { r with mode := .double }
      else if keptInDouble c then
        some ({ r with mode := .double }.put c)
      else
        some (({ r with mode := .double }.put '\\').put c)

/- Read a text. -/
def read (text : List Char) (r : Reader) : Option Reader :=
  text.foldlM step r

/- Before the first character. -/
def start : Reader :=
  ⟨.plain, none, []⟩

/- The words at the end: no quote may be open. -/
def finish (r : Reader) : Option (List (List Char)) :=
  match r.mode with
  | .plain => some r.close.words
  | _ => none

/- The words of a text. -/
def words (text : List Char) : Option (List (List Char)) :=
  (read text start).bind finish

end Shell

end Core

end Drex

------------------------------------------------------------
-- Reading Parts Of A Text
------------------------------------------------------------

namespace Drex

namespace Core

namespace Shell

@[simp] theorem read_nil (r : Reader) : read [] r = some r :=
  rfl

theorem read_cons
    (c : Char)
    (text : List Char)
    (r : Reader) :
    read (c :: text) r = (step r c).bind (read text) :=
  rfl

theorem read_append
    (text text' : List Char)
    (r : Reader) :
    read (text ++ text') r =
      (read text r).bind (read text') :=
  List.foldlM_append

/- In single quotes every other character is kept. -/
theorem step_single
    {c : Char}
    (h : c ≠ '\'')
    (word : List Char)
    (done : List (List Char)) :
    step ⟨.single, some word, done⟩ c =
      some ⟨.single, some (word ++ [c]), done⟩ := by
  simp [step, h, Reader.put]

end Shell

end Core

end Drex
