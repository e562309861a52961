import Drex.Client.Verdict
import Mathlib.Data.List.TakeWhile

/-
  What the client prints of the task's output.

  Key definitions include:
    * `Printed`
    * `openLine`
    * `printLog`
    * `drainPrinted`
    * `rendered`
    * `CutsPrefix`

  Key theorems include:
    * `printLog_eq`
    * `withPrefix_true`
    * `printLogs_apart`
    * `printed_eq_rendered_iff`
-/

------------------------------------------------------------
-- The Printer
------------------------------------------------------------

namespace Drex

/- What is written to standard output, piece by piece. -/
inductive Printed
| colour (sequence : Str)
| text (bytes : Str)
deriving DecidableEq

namespace Printed

/- The bytes of a piece. -/
def bytes : Printed → Str
| .colour sequence => sequence
| .text bytes => bytes

/- The bytes that stay once the colours are removed. -/
def plain : Printed → Str
| .colour _ => []
| .text bytes => bytes

end Printed

/- What a terminal without colours shows. -/
def plainText (printed : List Printed) : Str :=
  printed.flatMap Printed.plain

/- `kRawPrefix`. -/
def kRawPrefix : Str :=
  "[From server] ".toList

/- `kPrefix`. -/
def kPrefix : List Printed :=
  [.colour "\x1b[34m".toList, .text "[From server]".toList,
    .colour "\x1b[0m".toList, .text " ".toList]

/- `kStagePrefix`. -/
def kStagePrefix : List Printed :=
  kPrefix ++ [.colour "\x1b[33m".toList]

/- `kColorReset`. -/
def kColorReset : Printed :=
  .colour "\x1b[0m".toList

/- What the start of a line prints and leaves to print. -/
structure Opening where
  printed : List Printed
  stageLine : Bool
  body : Str

/- The prefix of a line, where one starts. -/
def openLine (logLineStart : Bool) (rest : Str) : Opening :=
  if logLineStart then
    if kRawPrefix.isPrefixOf rest then
      ⟨kStagePrefix, true, rest.drop kRawPrefix.length⟩
    else if
        "Command finished.".toList.isPrefixOf rest then
      ⟨kStagePrefix, true, rest⟩
    else
      ⟨kPrefix, false, rest⟩
  else
    ⟨[], false, rest⟩

/- The colour that ends a status line. -/
def closeLine (stageLine : Bool) : List Printed :=
  if stageLine then [kColorReset] else []

theorem openLine_body_length
    (logLineStart : Bool)
    (rest : Str) :
    (openLine logLineStart rest).body.length ≤
      rest.length := by
  unfold openLine
  cases logLineStart with
  | false => exact Nat.le_refl _
  | true =>
      simp only [if_true]
      split
      · rw [List.length_drop]
        exact Nat.sub_le _ _
      · split
        · exact Nat.le_refl _
        · exact Nat.le_refl _

theorem tail_dropWhile_length_lt
    {body : Str}
    (h : '\n' ∈ body) :
    (body.dropWhile (· ≠ '\n')).tail.length <
      body.length := by
  have hLength :=
    (List.dropWhile_sublist (l := body) (· ≠ '\n')).length_le
  have hPos := List.length_pos_of_mem h
  rw [List.length_tail]
  omega

/- The loop of `print_log`, and `log_line_start` after it. -/
def printLines
    (logLineStart : Bool)
    (rest : Str) :
    List Printed × Bool :=
  match rest with
  | [] => ([], logLineStart)
  | c :: tail =>
      if logLineStart ∧ c = '\n' then
        let (printed, lineStart) :=
          printLines logLineStart tail
        (.text ['\n'] :: printed, lineStart)
      else
        let line := openLine logLineStart (c :: tail)
        if _hNewline : '\n' ∈ line.body then
          let (printed, lineStart) :=
            printLines true
              (line.body.dropWhile (· ≠ '\n')).tail
          (line.printed ++
              [.text
                (line.body.takeWhile (· ≠ '\n') ++ ['\n'])] ++
              closeLine line.stageLine ++ printed,
            lineStart)
        else
          (line.printed ++ [.text line.body] ++
              closeLine line.stageLine,
            false)
termination_by rest.length
decreasing_by
  · simp
  · have hShort := tail_dropWhile_length_lt _hNewline
    have hBody := openLine_body_length logLineStart (c :: tail)
    simp only [line] at *
    omega

/- `print_log`, and `log_line_start` after it. -/
def printLog
    (rawTerminalOutput enableProgress : Bool)
    (logLineStart : Bool)
    (data : Str) :
    List Printed × Bool :=
  if data = [] then
    ([], logLineStart)
  else if rawTerminalOutput ∨ enableProgress = false then
    ([.text data], logLineStart)
  else
    printLines logLineStart data

/- What `DrainServerResponses` prints of the responses. -/
def drainPrinted
    (rawTerminalOutput enableProgress : Bool) :
    Bool → List TaskResponse → List Printed
| _, [] => []
| logLineStart, .logChunk data :: rest =>
    let (printed, lineStart) :=
      printLog rawTerminalOutput enableProgress
        logLineStart data
    printed ++
      drainPrinted rawTerminalOutput enableProgress
        lineStart rest
| logLineStart, .result _ :: rest =>
    drainPrinted rawTerminalOutput enableProgress
      logLineStart rest

end Drex

------------------------------------------------------------
-- One Character At A Time
------------------------------------------------------------

namespace Drex

/-
  The text of a stream with the prefix added where a line
  starts without it.  The flag says that a line starts here.
-/
def withPrefix : Bool → Str → Str
| _, [] => []
| true, c :: rest =>
    if c = '\n' then
      c :: withPrefix true rest
    else if kRawPrefix.isPrefixOf (c :: rest) then
      c :: withPrefix false rest
    else
      kRawPrefix ++ c :: withPrefix false rest
| false, c :: rest => c :: withPrefix (c = '\n') rest

/- Whether a line starts after a text. -/
def lineStartAfter : Bool → Str → Bool
| lineStart, [] => lineStart
| _, c :: rest => lineStartAfter (c = '\n') rest

theorem lineStartAfter_append
    (lineStart : Bool)
    (text text' : Str) :
    lineStartAfter lineStart (text ++ text') =
      lineStartAfter (lineStartAfter lineStart text)
        text' := by
  induction text generalizing lineStart with
  | nil => rfl
  | cons c text ih => exact ih _

/- Within a line nothing is added. -/
theorem withPrefix_line
    {line : Str}
    (h : '\n' ∉ line)
    (rest : Str) :
    withPrefix false (line ++ rest) =
      line ++ withPrefix false rest := by
  induction line with
  | nil => rfl
  | cons c line ih =>
      rw [List.mem_cons, not_or] at h
      have hNewline : decide (c = '\n') = false := by
        simpa using Ne.symm h.1
      rw [List.cons_append, withPrefix, hNewline, ih h.2]
      rfl

theorem lineStartAfter_line
    {line : Str}
    (h : '\n' ∉ line) :
    lineStartAfter false line = false := by
  induction line with
  | nil => rfl
  | cons c line ih =>
      rw [List.mem_cons, not_or] at h
      have hNewline : decide (c = '\n') = false := by
        simpa using Ne.symm h.1
      rw [lineStartAfter, hNewline]
      exact ih h.2

/- A line that starts with the prefix keeps it. -/
theorem withPrefix_of_prefix (rest : Str) :
    withPrefix true (kRawPrefix ++ rest) =
      kRawPrefix ++ withPrefix false rest := by
  have hLine : '\n' ∉ "From server] ".toList := by
    decide
  have hPrefix :
      kRawPrefix.isPrefixOf (kRawPrefix ++ rest) = true :=
    List.isPrefixOf_iff_prefix.mpr (List.prefix_append _ _)
  have hCons :
      kRawPrefix = '[' :: "From server] ".toList := rfl
  rw [hCons] at hPrefix ⊢
  rw [List.cons_append] at hPrefix ⊢
  rw [withPrefix, if_neg (by decide), hCons, if_pos hPrefix,
    withPrefix_line hLine]
  rfl

end Drex

------------------------------------------------------------
-- The Printer Works Character By Character
------------------------------------------------------------

namespace Drex

theorem plainText_append
    (printed printed' : List Printed) :
    plainText (printed ++ printed') =
      plainText printed ++ plainText printed' :=
  List.flatMap_append

theorem plainText_closeLine (stageLine : Bool) :
    plainText (closeLine stageLine) = [] := by
  cases stageLine with
  | false => rfl
  | true => rfl

theorem plainText_text (bytes : Str) :
    plainText [.text bytes] = bytes := by
  simp [plainText, Printed.plain]

/- Opening a line prints the prefix the line lacks. -/
theorem openLine_spec
    (logLineStart : Bool)
    (c : Char)
    (tail : Str)
    (hLine : ¬(logLineStart = true ∧ c = '\n')) :
    plainText (openLine logLineStart (c :: tail)).printed ++
        withPrefix false
          (openLine logLineStart (c :: tail)).body =
        withPrefix logLineStart (c :: tail) ∧
      lineStartAfter false
          (openLine logLineStart (c :: tail)).body =
        lineStartAfter logLineStart (c :: tail) := by
  cases logLineStart with
  | false => exact ⟨rfl, rfl⟩
  | true =>
      have hNewline : c ≠ '\n' := by
        simpa using hLine
      cases hPrefix : kRawPrefix.isPrefixOf (c :: tail) with
      | true =>
          rcases List.isPrefixOf_iff_prefix.mp hPrefix with
            ⟨body, hBody⟩
          rw [← hBody]
          have hOpen :
              openLine true (kRawPrefix ++ body) =
                ⟨kStagePrefix, true, body⟩ := by
            rw [hBody, openLine, if_pos rfl, if_pos hPrefix,
              ← hBody, List.drop_left]
          rw [hOpen, withPrefix_of_prefix,
            lineStartAfter_append]
          exact ⟨rfl, rfl⟩
      | false =>
          have hAdded :
              withPrefix true (c :: tail) =
                kRawPrefix ++ withPrefix false (c :: tail) := by
            simp [withPrefix, hNewline, hPrefix]
          rw [hAdded, openLine, if_pos rfl,
            if_neg (by simp [hPrefix])]
          split
          · exact ⟨rfl, rfl⟩
          · exact ⟨rfl, rfl⟩

/- The rest of a line is printed as it stands. -/
theorem withPrefix_body
    {body : Str}
    (h : '\n' ∈ body) :
    withPrefix false body =
        (body.takeWhile (· ≠ '\n') ++ ['\n']) ++
          withPrefix true
            (body.dropWhile (· ≠ '\n')).tail ∧
      lineStartAfter false body =
        lineStartAfter true
          (body.dropWhile (· ≠ '\n')).tail := by
  have hLine : '\n' ∉ body.takeWhile (· ≠ '\n') := by
    intro hMem
    simpa using List.mem_takeWhile_imp hMem
  have hDrop : ∃ rest,
      body.dropWhile (· ≠ '\n') = '\n' :: rest := by
    cases hRest : body.dropWhile (· ≠ '\n') with
    | nil =>
        rw [List.dropWhile_eq_nil_iff] at hRest
        simpa using hRest '\n' h
    | cons d rest =>
        have hHead :=
          List.head?_dropWhile_not (· ≠ '\n') body
        rw [hRest] at hHead
        refine ⟨rest, ?_⟩
        simpa using hHead
  rcases hDrop with ⟨rest, hRest⟩
  have hBody :
      body.takeWhile (· ≠ '\n') ++ '\n' :: rest = body := by
    rw [← hRest, List.takeWhile_append_dropWhile]
  rw [hRest, List.tail_cons]
  constructor
  · calc
      withPrefix false body =
          body.takeWhile (· ≠ '\n') ++
            withPrefix false ('\n' :: rest) := by
        conv => lhs; rw [← hBody]
        exact withPrefix_line hLine _
      _ = _ := by
        simp [withPrefix]
  · calc
      lineStartAfter false body =
          lineStartAfter
            (lineStartAfter false
              (body.takeWhile (· ≠ '\n')))
            ('\n' :: rest) := by
        conv => lhs; rw [← hBody]
        exact lineStartAfter_append _ _ _
      _ = lineStartAfter true rest := by
        rfl

/- The loop prints the text with its prefixes. -/
theorem printLines_eq
    (logLineStart : Bool)
    (rest : Str) :
    plainText (printLines logLineStart rest).1 =
        withPrefix logLineStart rest ∧
      (printLines logLineStart rest).2 =
        lineStartAfter logLineStart rest := by
  induction hLength : rest.length
    using Nat.strong_induction_on
    generalizing logLineStart rest with
  | _ length ih =>
      cases rest with
      | nil =>
          rw [printLines]
          simp [withPrefix, lineStartAfter, plainText]
      | cons c tail =>
          rw [printLines]
          by_cases hEmpty : logLineStart = true ∧ c = '\n'
          · rw [if_pos hEmpty]
            have hRest :=
              ih tail.length (by simp [← hLength])
                logLineStart tail rfl
            rcases hEmpty with ⟨rfl, rfl⟩
            refine ⟨?_, hRest.2⟩
            rw [withPrefix, if_pos rfl, ← hRest.1]
            rfl
          · rw [if_neg hEmpty]
            have hOpen :=
              openLine_spec logLineStart c tail hEmpty
            have hShort :=
              openLine_body_length logLineStart (c :: tail)
            generalize openLine logLineStart (c :: tail) =
              line at hOpen hShort
            by_cases hNewline : '\n' ∈ line.body
            · have hTail := tail_dropWhile_length_lt hNewline
              have hBody := withPrefix_body hNewline
              have hRest :=
                ih _ (by omega) true
                  (line.body.dropWhile (· ≠ '\n')).tail rfl
              simp only [hNewline, dite_true]
              constructor
              · rw [← hOpen.1, hBody.1, ← hRest.1]
                simp only [plainText_append, plainText_text,
                  plainText_closeLine, List.append_assoc,
                  List.nil_append]
              · rw [hRest.2, ← hOpen.2, hBody.2]
            · simp only [hNewline, dite_false]
              have hBody :=
                withPrefix_line hNewline []
              rw [List.append_nil] at hBody
              constructor
              · rw [← hOpen.1, hBody]
                simp only [plainText_append,
                  plainText_text, plainText_closeLine,
                  withPrefix, List.append_assoc]
              · rw [← hOpen.2, lineStartAfter_line hNewline]

/- A chunk is printed with the prefixes it lacks. -/
theorem printLog_eq
    (logLineStart : Bool)
    (data : Str) :
    plainText (printLog false true logLineStart data).1 =
        withPrefix logLineStart data ∧
      (printLog false true logLineStart data).2 =
        lineStartAfter logLineStart data := by
  unfold printLog
  by_cases hData : data = []
  · subst hData
    exact ⟨rfl, rfl⟩
  · rw [if_neg hData, if_neg (by simp)]
    exact printLines_eq logLineStart data

end Drex

------------------------------------------------------------
-- Lines
------------------------------------------------------------

namespace Drex

/- A line as it is shown. -/
def prefixedLine (line : Str) : Str :=
  if line = [] then
    []
  else if kRawPrefix.isPrefixOf line then
    line
  else
    kRawPrefix ++ line

/-
  The stream with every line that is not empty starting with
  one prefix, and nothing else changed.
-/
def rendered (stream : Str) : Str :=
  List.intercalate ['\n']
    ((stream.splitOn '\n').map prefixedLine)

theorem splitOn_newline (rest : Str) :
    ('\n' :: rest).splitOn '\n' =
      [] :: rest.splitOn '\n' := by
  unfold List.splitOn
  rw [List.splitOnP_cons_eq_if_modifyHead,
    if_pos (beq_self_eq_true _)]

theorem splitOn_cons
    {c : Char}
    (h : c ≠ '\n')
    (rest : Str) :
    (c :: rest).splitOn '\n' =
      (rest.splitOn '\n').modifyHead (List.cons c) := by
  unfold List.splitOn
  rw [List.splitOnP_cons_eq_if_modifyHead,
    if_neg (by simpa using h)]

/- The first line of a text, and the others. -/
theorem splitOn_eq_cons (text : Str) :
    ∃ lines,
      text.splitOn '\n' =
        text.takeWhile (· ≠ '\n') :: lines := by
  induction text with
  | nil => exact ⟨[], rfl⟩
  | cons c text ih =>
      by_cases hNewline : c = '\n'
      · subst hNewline
        exact ⟨_, splitOn_newline text⟩
      · rcases ih with ⟨lines, hLines⟩
        refine ⟨lines, ?_⟩
        rw [splitOn_cons hNewline, hLines]
        simp [hNewline]

/- Only the line itself decides whether it has the prefix. -/
theorem isPrefixOf_takeWhile
    {start : Str}
    (h : '\n' ∉ start)
    (text : Str) :
    start.isPrefixOf (text.takeWhile (· ≠ '\n')) =
      start.isPrefixOf text := by
  induction start generalizing text with
  | nil => simp
  | cons d start ih =>
      rw [List.mem_cons, not_or] at h
      cases text with
      | nil => rfl
      | cons c text =>
          by_cases hNewline : c = '\n'
          · subst hNewline
            have hNe : (d == '\n') = false := by
              simpa using Ne.symm h.1
            simp [List.isPrefixOf, hNe]
          · rw [List.takeWhile_cons_of_pos (by simpa)]
            simp only [List.isPrefixOf, ih h.2]

theorem intercalate_append_left
    (separator start line : Str)
    (lines : List Str) :
    List.intercalate separator ((start ++ line) :: lines) =
      start ++ List.intercalate separator (line :: lines) := by
  induction start with
  | nil => rfl
  | cons c start ih =>
      rw [List.cons_append, List.intercalate_cons_cons_left,
        ih]
      rfl

/- The text with its prefixes, line by line. -/
theorem withPrefix_lines (text : Str) :
    withPrefix true text = rendered text ∧
      withPrefix false text =
        List.intercalate ['\n']
          (text.takeWhile (· ≠ '\n') ::
            (text.splitOn '\n').tail.map prefixedLine) := by
  induction text with
  | nil => exact ⟨rfl, rfl⟩
  | cons c text ih =>
      rcases splitOn_eq_cons text with ⟨lines, hLines⟩
      by_cases hNewline : c = '\n'
      · subst hNewline
        have hRest :
            List.intercalate ['\n']
                ([] :: (text.splitOn '\n').map
                  prefixedLine) =
              '\n' :: rendered text := by
          rw [List.intercalate_cons_of_ne_nil (by simp)]
          rfl
        constructor
        · rw [withPrefix, if_pos rfl, ih.1, ← hRest,
            rendered, splitOn_newline]
          rfl
        · rw [splitOn_newline, List.tail_cons,
            List.takeWhile_cons_of_neg (by simp), hRest,
            ← ih.1]
          rfl
      · have hKeep :
            c :: withPrefix false text =
              List.intercalate ['\n']
                ((c :: text.takeWhile (· ≠ '\n')) ::
                  lines.map prefixedLine) := by
          rw [List.intercalate_cons_cons_left, ih.2, hLines,
            List.tail_cons]
        have hFirst :
            (c :: text).takeWhile (· ≠ '\n') =
              c :: text.takeWhile (· ≠ '\n') :=
          List.takeWhile_cons_of_pos (by simpa using hNewline)
        have hSplit :
            (c :: text).splitOn '\n' =
              (c :: text.takeWhile (· ≠ '\n')) :: lines := by
          rw [splitOn_cons hNewline, hLines,
            List.modifyHead_cons]
        have hPrefix :=
          isPrefixOf_takeWhile
            (by decide : '\n' ∉ kRawPrefix) (c :: text)
        rw [hFirst] at hPrefix
        have hLine :
            prefixedLine (c :: text.takeWhile (· ≠ '\n')) =
              if kRawPrefix.isPrefixOf (c :: text) then
                c :: text.takeWhile (· ≠ '\n')
              else
                kRawPrefix ++
                  c :: text.takeWhile (· ≠ '\n') := by
          rw [prefixedLine, if_neg (List.cons_ne_nil _ _),
            hPrefix]
        constructor
        · rw [withPrefix, if_neg hNewline, hKeep, rendered,
            hSplit, List.map_cons, hLine]
          split
          · rfl
          · rw [intercalate_append_left]
        · rw [hSplit, hFirst, List.tail_cons, ← hKeep]
          simp [withPrefix, hNewline]

/- The text with its prefixes is the stream by its lines. -/
theorem withPrefix_true (text : Str) :
    withPrefix true text = rendered text :=
  (withPrefix_lines text).1

end Drex

------------------------------------------------------------
-- Chunks
------------------------------------------------------------

namespace Drex

/-
  The end of a text cuts a prefix that the stream has: a line
  starts in the text with a part of the prefix, and what
  follows the text completes it.
-/
def Cuts (lineStart : Bool) (text after : Str) : Prop :=
  ∃ head part,
    text = head ++ part ∧
      lineStartAfter lineStart head = true ∧
        part ≠ [] ∧
          ¬kRawPrefix <+: part ∧
            kRawPrefix <+: part ++ after

theorem not_cuts_nil (lineStart : Bool) (after : Str) :
    ¬Cuts lineStart [] after := by
  rintro ⟨head, part, hText, hStart, hPart, hNot, hPrefix⟩
  exact hPart (List.append_eq_nil_iff.mp hText.symm).2

theorem cuts_cons_iff
    (lineStart : Bool)
    (c : Char)
    (text after : Str) :
    Cuts lineStart (c :: text) after ↔
      (lineStart = true ∧ ¬kRawPrefix <+: c :: text ∧
        kRawPrefix <+: c :: text ++ after) ∨
        Cuts (c = '\n') text after := by
  constructor
  · rintro ⟨head, part, hText, hStart, hPart, hNot, hPrefix⟩
    cases head with
    | nil =>
        rw [List.nil_append] at hText
        subst hText
        exact Or.inl ⟨hStart, hNot, hPrefix⟩
    | cons d head =>
        rw [List.cons_append] at hText
        rcases List.cons.inj hText with ⟨rfl, hRest⟩
        exact
          Or.inr
            ⟨head, part, hRest, hStart, hPart, hNot, hPrefix⟩
  · rintro (⟨hStart, hNot, hPrefix⟩ |
      ⟨head, part, hText, hStart, hPart, hNot, hPrefix⟩)
    · exact
        ⟨[], c :: text, rfl, hStart, List.cons_ne_nil _ _,
          hNot, hPrefix⟩
    · refine
        ⟨c :: head, part, ?_, hStart, hPart, hNot, hPrefix⟩
      rw [hText, List.cons_append]

/- Printing in two parts keeps what one part would print. -/
structure PrintsApart
    (cut : Prop)
    (apart whole : Str) : Prop where
  same : ¬cut → apart = whole
  longer : cut → whole.length < apart.length

namespace PrintsApart

variable {cut : Prop} {apart whole : Str}

theorem length_le
    (h : PrintsApart cut apart whole) :
    whole.length ≤ apart.length := by
  by_cases hCut : cut
  · exact (h.longer hCut).le
  · rw [h.same hCut]

/- Both texts with the same bytes before them. -/
theorem append_left
    (h : PrintsApart cut apart whole)
    (start : Str) :
    PrintsApart cut (start ++ apart) (start ++ whole) where
  same := fun hCut => by
    rw [h.same hCut]
  longer := fun hCut => by
    have hLonger := h.longer hCut
    simp only [List.length_append]
    omega

/- Both texts are the same exactly if nothing is cut. -/
theorem eq_iff
    (h : PrintsApart cut apart whole) :
    apart = whole ↔ ¬cut := by
  constructor
  · intro hEq hCut
    have hLonger := h.longer hCut
    rw [hEq] at hLonger
    exact Nat.lt_irrefl _ hLonger
  · exact h.same

end PrintsApart

/-
  Printing a text in two parts adds a prefix where the parts
  cut one, and is the same otherwise.
-/
theorem withPrefix_append
    (lineStart : Bool)
    (text after : Str) :
    PrintsApart (Cuts lineStart text after)
      (withPrefix lineStart text ++
        withPrefix (lineStartAfter lineStart text) after)
      (withPrefix lineStart (text ++ after)) := by
  induction text generalizing lineStart with
  | nil =>
      exact
        { same := fun _ => rfl
          longer := fun hCuts =>
            absurd hCuts (not_cuts_nil _ _) }
  | cons c text ih =>
      rw [cuts_cons_iff, lineStartAfter]
      cases lineStart with
      | false =>
          simpa [withPrefix] using
            (ih (c = '\n')).append_left [c]
      | true =>
          by_cases hNewline : c = '\n'
          · subst hNewline
            have hNot :
                ¬kRawPrefix <+: '\n' :: (text ++ after) := by
              rw [← List.isPrefixOf_iff_prefix]
              exact Bool.false_ne_true
            simpa [withPrefix, hNot] using
              (ih true).append_left ['\n']
          · have hFalse : decide (c = '\n') = false := by
              simpa using hNewline
            rw [hFalse]
            by_cases hPrefix : kRawPrefix <+: c :: text
            · have hWhole :
                  kRawPrefix <+: c :: (text ++ after) :=
                hPrefix.trans (List.prefix_append _ _)
              simpa [withPrefix, hNewline, hPrefix, hWhole]
                using (ih false).append_left [c]
            · by_cases hWhole :
                  kRawPrefix <+: c :: (text ++ after)
              · have hLength := (ih false).length_le
                have hPos : 0 < kRawPrefix.length := by
                  decide
                refine ⟨?_, ?_⟩
                · intro hCut
                  exact absurd ⟨rfl, hPrefix, hWhole⟩
                    (not_or.mp hCut).1
                · intro hCut
                  simp only [withPrefix, hNewline, hPrefix,
                    hWhole, if_false, if_true,
                    List.cons_append, List.append_assoc,
                    List.isPrefixOf_iff_prefix,
                    List.length_append,
                    List.length_cons] at hLength ⊢
                  omega
              · simpa [withPrefix, hNewline, hPrefix, hWhole]
                  using
                    (ih false).append_left (kRawPrefix ++ [c])

/- What is printed of chunks, without the colours. -/
def printLogs (lineStart : Bool) (chunks : List Str) : Str :=
  plainText
    (drainPrinted false true lineStart
      (chunks.map TaskResponse.logChunk))

theorem printLogs_cons
    (lineStart : Bool)
    (chunk : Str)
    (chunks : List Str) :
    printLogs lineStart (chunk :: chunks) =
      withPrefix lineStart chunk ++
        printLogs (lineStartAfter lineStart chunk)
          chunks := by
  have hChunk := printLog_eq lineStart chunk
  unfold printLogs
  rw [List.map_cons, drainPrinted, plainText_append,
    hChunk.1, hChunk.2]

/-
  A boundary between the chunks falls inside a prefix that
  stands at the start of a line of the stream.
-/
def CutsPrefixFrom
    (lineStart : Bool)
    (chunks : List Str) : Prop :=
  ∃ before after,
    chunks = before ++ after ∧
      Cuts lineStart before.flatten after.flatten

/- The same from the start of the stream. -/
def CutsPrefix (chunks : List Str) : Prop :=
  CutsPrefixFrom true chunks

/- The first boundary in a prefix ends some chunk. -/
theorem cutsPrefixFrom_cons_iff
    (lineStart : Bool)
    (chunk : Str)
    (chunks : List Str) :
    CutsPrefixFrom lineStart (chunk :: chunks) ↔
      Cuts lineStart chunk chunks.flatten ∨
        CutsPrefixFrom (lineStartAfter lineStart chunk)
          chunks := by
  constructor
  · rintro ⟨before, after, hSplit, hCuts⟩
    cases before with
    | nil => exact absurd hCuts (not_cuts_nil _ _)
    | cons first before =>
        rw [List.cons_append] at hSplit
        rcases List.cons.inj hSplit with ⟨rfl, rfl⟩
        rcases hCuts with
          ⟨head, part, hText, hStart, hPart, hNot, hPrefix⟩
        rw [List.flatten_cons] at hText
        rcases List.append_eq_append_iff.mp hText with
          ⟨rest, hHead, hRest⟩ | ⟨rest, hChunk, hRest⟩
        · rw [hHead, lineStartAfter_append] at hStart
          exact
            Or.inr
              ⟨before, after, rfl, rest, part, hRest,
                hStart, hPart, hNot, hPrefix⟩
        · by_cases hNil : rest = []
          · subst hNil
            rw [List.append_nil] at hChunk
            subst hChunk
            exact
              Or.inr
                ⟨before, after, rfl, [], part, hRest.symm,
                  hStart, hPart, hNot, hPrefix⟩
          · refine
              Or.inl
                ⟨head, rest, hChunk, hStart, hNil, ?_, ?_⟩
            · intro hRestPrefix
              apply hNot
              rw [hRest]
              exact
                hRestPrefix.trans (List.prefix_append _ _)
            · rw [hRest, List.append_assoc] at hPrefix
              rw [List.flatten_append]
              exact hPrefix
  · rintro (hCuts | ⟨before, after, rfl, head, part, hText,
      hStart, hPart, hNot, hPrefix⟩)
    · refine ⟨[chunk], chunks, rfl, ?_⟩
      simpa using hCuts
    · refine
        ⟨chunk :: before, after, rfl, chunk ++ head, part,
          ?_, ?_, hPart, hNot, hPrefix⟩
      · rw [List.flatten_cons, hText, List.append_assoc]
      · rw [lineStartAfter_append]
        exact hStart

/- What is printed of chunks against the whole stream. -/
theorem printLogs_apart
    (lineStart : Bool)
    (chunks : List Str) :
    PrintsApart (CutsPrefixFrom lineStart chunks)
      (printLogs lineStart chunks)
      (withPrefix lineStart chunks.flatten) := by
  induction chunks generalizing lineStart with
  | nil =>
      refine ⟨fun _ => rfl, ?_⟩
      rintro ⟨before, after, hSplit, hCuts⟩
      rcases List.append_eq_nil_iff.mp hSplit.symm with
        ⟨rfl, rfl⟩
      exact absurd hCuts (not_cuts_nil _ _)
  | cons chunk chunks ih =>
      have hHead :=
        withPrefix_append lineStart chunk chunks.flatten
      have hTail :=
        (ih (lineStartAfter lineStart chunk)).append_left
          (withPrefix lineStart chunk)
      rw [cutsPrefixFrom_cons_iff, printLogs_cons,
        List.flatten_cons]
      constructor
      · intro hCut
        rw [not_or] at hCut
        exact
          (hTail.same hCut.2).trans (hHead.same hCut.1)
      · rintro (hCut | hCut)
        · exact (hHead.longer hCut).trans_le hTail.length_le
        · exact hHead.length_le.trans_lt (hTail.longer hCut)

/-
  Two splittings of a stream are printed as the stream with
  its prefixes exactly when neither cuts a prefix.
-/
theorem printed_eq_rendered_iff
    (chunks chunks' : List Str)
    (hSplit : chunks.flatten = chunks'.flatten) :
    (printLogs true chunks = rendered chunks.flatten ∧
        printLogs true chunks' = rendered chunks.flatten) ↔
      ¬CutsPrefix chunks ∧ ¬CutsPrefix chunks' := by
  have hFirst := (printLogs_apart true chunks).eq_iff
  have hSecond := (printLogs_apart true chunks').eq_iff
  rw [withPrefix_true] at hFirst hSecond
  rw [hFirst, hSplit, hSecond]
  rfl

/- A status line in two chunks that keep its prefix whole. -/
theorem not_cutsPrefix_status_line :
    ¬CutsPrefix
        ["[From server] ".toList, "Start.\nx".toList] ∧
      ¬CutsPrefix
        ["[From server] Start.".toList, "\nx".toList] :=
  (printed_eq_rendered_iff
    ["[From server] ".toList, "Start.\nx".toList]
    ["[From server] Start.".toList, "\nx".toList]
    (by decide)).mp
    (by
      simp only [printLogs_cons, ← withPrefix_true]
      decide)

/- A prefix cut in two is printed a second time. -/
theorem not_printed_eq_rendered :
    ¬∀ chunks chunks' : List Str,
      chunks.flatten = chunks'.flatten →
        printLogs true chunks = printLogs true chunks' ∧
          printLogs true chunks = rendered chunks.flatten := by
  intro hRenders
  have hPrinted :=
    (hRenders ["[From".toList, " server] x\n".toList]
      ["[From server] x\n".toList] (by decide)).2
  simp only [printLogs_cons, ← withPrefix_true] at hPrinted
  exact absurd hPrinted (by decide)

end Drex
