import Mathlib.Data.List.TakeWhile
import Mathlib.Tactic.Common

/-
  Texts that are written and read back.

  A format writes a value and reads it from the front of a
  text.  It says which values it reads back, and what may
  follow them, so that formats can be put together.

  Key definitions include:
    * `Format`
    * `Format.literal`
    * `Format.before`
    * `Format.pair`
    * `Format.optional`
    * `Format.listed`
    * `Format.readAll`

  Key theorems include:
    * `Format.readListed_write`
    * `Format.readAll_write`
-/

------------------------------------------------------------
-- Formats
------------------------------------------------------------

namespace Drex

namespace Core

/-
  How a value is written, how it is read from a text that
  starts with it, the values that are read back, and the
  texts that may follow.
-/
structure Format (S α : Type) where
  write : α → List S
  read : List S → Option (α × List S)
  Fits : α → Prop
  Ends : List S → Prop
  read_write :
    ∀ {a : α} {rest : List S}, Fits a → Ends rest →
      read (write a ++ rest) = some (a, rest)

namespace Format

variable {S α β : Type}
variable [DecidableEq S]

/- A text that is there every time. -/
def literal (text : List S) : Format S Unit where
  write _ := text
  read t :=
    if text.isPrefixOf t then
      some ((), t.drop text.length)
    else
      none
  Fits _ := True
  Ends _ := True
  read_write := by
    intro _ rest _ _
    have hPrefix : text.isPrefixOf (text ++ rest) = true :=
      List.isPrefixOf_iff_prefix.mpr (List.prefix_append _ _)
    rw [if_pos hPrefix, List.drop_left]

/- What stands before the first symbol that stops it. -/
def before (stops : S → Bool) : Format S (List S) where
  write text := text
  read t :=
    some
      (t.takeWhile (fun c => !stops c),
        t.dropWhile (fun c => !stops c))
  Fits text := ∀ c ∈ text, stops c = false
  Ends rest := ∀ c ∈ rest.head?, stops c = true
  read_write := by
    intro text rest hText hRest
    have hGoes : ∀ c ∈ text, (!stops c) = true := by
      intro c hMem
      rw [hText c hMem]
      rfl
    have hStops :
        rest.takeWhile (fun c => !stops c) = [] ∧
          rest.dropWhile (fun c => !stops c) = rest := by
      cases rest with
      | nil => exact ⟨rfl, rfl⟩
      | cons c rest =>
          have hStop : stops c = true := hRest c rfl
          simp [hStop]
    rw [List.takeWhile_append_of_pos hGoes,
      List.dropWhile_append_of_pos hGoes, hStops.1, hStops.2,
      List.append_nil]

/- One value and another behind it. -/
def pair
    (f : Format S α)
    (g : Format S β)
    (hEnds :
      ∀ b rest, g.Fits b → g.Ends rest →
        f.Ends (g.write b ++ rest)) :
    Format S (α × β) where
  write p := f.write p.1 ++ g.write p.2
  read t :=
    match f.read t with
    | none => none
    | some (a, rest) =>
        (g.read rest).map fun q => ((a, q.1), q.2)
  Fits p := f.Fits p.1 ∧ g.Fits p.2
  Ends := g.Ends
  read_write := by
    intro p rest hFits hRest
    rw [List.append_assoc,
      f.read_write hFits.1 (hEnds p.2 rest hFits.2 hRest)]
    dsimp only
    rw [g.read_write hFits.2 hRest]
    rfl

/- The same text for values of another type. -/
def map
    (f : Format S α)
    (forth : α → β)
    (back : β → α)
    (hBack : ∀ b, forth (back b) = b) :
    Format S β where
  write b := f.write (back b)
  read t := (f.read t).map fun q => (forth q.1, q.2)
  Fits b := f.Fits (back b)
  Ends := f.Ends
  read_write := by
    intro b rest hFits hRest
    rw [f.read_write hFits hRest, Option.map_some, hBack]

/- A value behind a text that leads to it. -/
def lead (f : Format S α) (text : List S) : Format S α :=
  ((literal text).pair f (fun _ _ _ _ => trivial)).map
    Prod.snd (fun a => ((), a)) (fun _ => rfl)

/- A value that may be missing, with what leads to it. -/
def optional
    (text : List S)
    (f : Format S α) :
    Format S (Option α) where
  write
  | none => []
  | some a => text ++ f.write a
  read t :=
    if text.isPrefixOf t then
      (f.read (t.drop text.length)).map fun q =>
        (some q.1, q.2)
    else
      some (none, t)
  Fits o := ∀ a ∈ o, f.Fits a
  Ends rest := f.Ends rest ∧ ¬ text <+: rest
  read_write := by
    intro o rest hFits hRest
    cases o with
    | none =>
        have hOther : ¬ text.isPrefixOf rest = true := by
          rw [List.isPrefixOf_iff_prefix]
          exact hRest.2
        rw [List.nil_append, if_neg hOther]
    | some a =>
        have hPrefix :
            text.isPrefixOf (text ++ f.write a ++ rest) =
              true := by
          rw [List.isPrefixOf_iff_prefix, List.append_assoc]
          exact List.prefix_append _ _
        rw [if_pos hPrefix, List.append_assoc, List.drop_left,
          f.read_write (hFits a rfl) hRest.1]
        rfl

end Format

end Core

end Drex

------------------------------------------------------------
-- Several Values
------------------------------------------------------------

namespace Drex

namespace Core

namespace Format

variable {S α : Type}
variable (f : Format S α)

/- The values one after the other, to the end of the text. -/
def readAll : Nat → List S → Option (List α)
| _, [] => some []
| 0, _ :: _ => none
| n + 1, c :: t =>
    match f.read (c :: t) with
    | none => none
    | some (a, rest) =>
        (readAll n rest).map fun values => a :: values

variable {f}

/- Values that take up text are read to the last. -/
theorem readAll_write
    (hEnds : ∀ rest, f.Ends rest)
    {values : List α}
    {n : Nat}
    (hFits : ∀ a ∈ values, f.Fits a ∧ f.write a ≠ [])
    (hFuel : values.length ≤ n) :
    f.readAll n (values.flatMap f.write) = some values := by
  induction values generalizing n with
  | nil =>
      cases n with
      | zero => rfl
      | succ n => rfl
  | cons a values ih =>
      have hFirst := hFits a List.mem_cons_self
      cases n with
      | zero => cases hFuel
      | succ n =>
          have hLater :=
            ih (n := n)
              (fun c hMem =>
                hFits c (List.mem_cons_of_mem a hMem))
              (Nat.le_of_succ_le_succ hFuel)
          have hRead :
              f.read (f.write a ++ values.flatMap f.write) =
                some (a, values.flatMap f.write) :=
            f.read_write hFirst.1 (hEnds _)
          rw [List.flatMap_cons]
          cases hText : f.write a with
          | nil => exact absurd hText hFirst.2
          | cons c text =>
              rw [hText, List.cons_append] at hRead
              rw [List.cons_append, readAll, hRead]
              simp only [hLater, Option.map_some]

variable (f)

/- The values with a separator between them. -/
def writeListed (sep : S) : List α → List S
| [] => []
| [a] => f.write a
| a :: rest => f.write a ++ sep :: writeListed sep rest

variable {f}

theorem writeListed_cons
    (sep : S)
    (a b : α)
    (values : List α) :
    f.writeListed sep (a :: b :: values) =
      f.write a ++ sep :: f.writeListed sep (b :: values) :=
  rfl

/- Each separator is a symbol of the text. -/
theorem length_le_writeListed
    (sep : S)
    (values : List α) :
    values.length ≤ (f.writeListed sep values).length + 1 := by
  induction values with
  | nil => exact Nat.zero_le _
  | cons a values ih =>
      cases values with
      | nil => exact Nat.succ_le_succ (Nat.zero_le _)
      | cons b values =>
          rw [writeListed_cons]
          simp only [List.length_cons, List.length_append]
            at ih ⊢
          omega

variable [DecidableEq S]
variable (f)

/- The values up to one that no separator follows. -/
def readListed
    (sep : S) :
    Nat → List S → Option (List α × List S)
| 0, _ => none
| n + 1, t =>
    match f.read t with
    | none => none
    | some (a, []) => some ([a], [])
    | some (a, c :: rest) =>
        if c = sep then
          (readListed sep n rest).map fun q =>
            (a :: q.1, q.2)
        else
          some ([a], c :: rest)

variable {f}

theorem readListed_write
    {sep : S}
    (hSep : ∀ rest, f.Ends (sep :: rest))
    {values : List α}
    {rest : List S}
    {n : Nat}
    (hNil : values ≠ [])
    (hFits : ∀ a ∈ values, f.Fits a)
    (hRest : f.Ends rest ∧ sep ∉ rest.head?)
    (hFuel : values.length ≤ n) :
    f.readListed sep n (f.writeListed sep values ++ rest) =
      some (values, rest) := by
  induction values generalizing n with
  | nil => exact absurd rfl hNil
  | cons a values ih =>
      cases n with
      | zero => cases hFuel
      | succ n =>
          have hFirst : f.Fits a :=
            hFits a List.mem_cons_self
          cases values with
          | nil =>
              rw [writeListed, readListed,
                f.read_write hFirst hRest.1]
              cases rest with
              | nil => rfl
              | cons c rest =>
                  have hOther : ¬ c = sep := by
                    intro hEq
                    exact hRest.2 (by simp [hEq])
                  simp only [if_neg hOther]
          | cons b values =>
              have hLater :=
                ih (n := n) (List.cons_ne_nil b values)
                  (fun c hMem =>
                    hFits c (List.mem_cons_of_mem a hMem))
                  (Nat.le_of_succ_le_succ hFuel)
              rw [writeListed_cons, readListed,
                List.append_assoc, List.cons_append,
                f.read_write hFirst (hSep _)]
              simp only [if_true, hLater, Option.map_some]

variable (f)

/- One value or more, with a separator between them. -/
def listed
    (sep : S)
    (hSep : ∀ rest, f.Ends (sep :: rest)) :
    Format S (List α) where
  write := f.writeListed sep
  read t := f.readListed sep (t.length + 1) t
  Fits values := values ≠ [] ∧ ∀ a ∈ values, f.Fits a
  Ends rest := f.Ends rest ∧ sep ∉ rest.head?
  read_write := by
    intro values rest hFits hRest
    apply readListed_write hSep hFits.1 hFits.2 hRest
    have hLength := length_le_writeListed (f := f) sep values
    rw [List.length_append]
    omega

end Format

end Core

end Drex
