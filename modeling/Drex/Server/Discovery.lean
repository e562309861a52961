import Drex.Server.Stores
import Mathlib.Data.List.Nodup
import Mathlib.Data.List.TakeWhile

/-
  Finding the processes of a task in the process table.

  Key definitions include:
    * `ProcStat`
    * `ProcTable`
    * `groupOfLine`
    * `readProcessGroup`
    * `findPidsInProcessGroup`
    * `ListsGroup`

  Key theorems include:
    * `strtol_decimal`
    * `readProcessGroup_oneLine`
    * `readProcessGroup_newline`
    * `mem_findPidsInProcessGroup_iff`
    * `listsGroup_iff`
    * `group_discovery_iff`
-/

------------------------------------------------------------
-- The Process Table
------------------------------------------------------------

namespace Drex

/-
  A process and the fields of its `stat` file.  The fields
  after the group are numbers with a blank before each.
-/
structure ProcStat where
  pid : Pid
  comm : Str
  state : Char
  ppid : Int
  group : Pid
  rest : Str
  pid_pos : 0 < pid
  pid_lt : pid < 2147483648
  state_letter : state.isAlpha = true
  ppid_range : -2147483648 ≤ ppid ∧ ppid < 2147483648
  group_range : -2147483648 ≤ group ∧ group < 2147483648
  rest_plain :
    ∀ c ∈ rest, c.isDigit = true ∨ c = ' ' ∨ c = '-'
  rest_start : ∀ c ∈ rest.head?, c = ' '

namespace ProcStat

/- The fields after the name. -/
def fields (p : ProcStat) : Str :=
  p.state :: ' ' :: decimal p.ppid ++
    ' ' :: decimal p.group ++ p.rest

/- The `stat` file: the name stands in it unescaped. -/
def statText (p : ProcStat) : Str :=
  decimal p.pid ++ " (".toList ++ p.comm ++ ") ".toList ++
    p.fields ++ ['\n']

end ProcStat

/- `IsNumericName`. -/
def isNumericName (name : Str) : Bool :=
  decide (name ≠ []) && name.all Char.isDigit

/-
  The processes, and the entries of `/proc` in the order
  they are read.
-/
structure ProcTable where
  processes : List ProcStat
  entries : List Str
  pids_nodup : (processes.map ProcStat.pid).Nodup
  entries_nodup : entries.Nodup
  listed : ∀ name, isNumericName name = true →
    (name ∈ entries ↔
      ∃ p ∈ processes, name = decimal p.pid)

/- The text of the `stat` file of a process. -/
def ProcTable.stat (t : ProcTable) (pid : Pid) : Option Str :=
  (t.processes.find? (fun p => p.pid = pid)).map
    ProcStat.statText

end Drex

------------------------------------------------------------
-- Reading The Group
------------------------------------------------------------

namespace Drex

/- What `std::getline` takes of a text. -/
def firstLine (text : Str) : Str :=
  text.takeWhile (· ≠ '\n')

/- The text after the last `)`, which `rfind` looks for. -/
def afterLastParen : Str → Option Str
| [] => none
| c :: rest =>
    match afterLastParen rest with
    | some after => some after
    | none => if c = ')' then some rest else none

/- `fields >> c`. -/
def readChar (fields : Str) : Option (Char × Str) :=
  match fields.dropWhile isSpace with
  | [] => none
  | c :: rest => some (c, rest)

/- `fields >> n`, which fails where a `long` is too small. -/
def readLong (fields : Str) : Option (Int × Str) := do
  let (n, rest) ← strtol fields
  if -9223372036854775808 ≤ n ∧ n ≤ 9223372036854775807 then
    some (n, rest)
  else
    none

/- `static_cast<pid_t>`. -/
def toPid (n : Int) : Pid :=
  n.bmod 4294967296

/- The group among the fields after the name. -/
def groupField (fields : Str) : Option Pid := do
  let (_, rest) ← readChar fields
  let (_, rest) ← readLong rest
  let (pgrp, _) ← readLong rest
  return toPid pgrp

/- The group a line of a `stat` file names. -/
def groupOfLine (stat : Str) : Option Pid :=
  match afterLastParen stat with
  | none => none
  | some after =>
      -- `close_paren + 2 >= stat.size()`
      if after.length < 2 then
        none
      else
        groupField (after.drop 1)

/- `ReadProcessGroup`, on the text of the file. -/
def readProcessGroup (text : Str) : Option Pid :=
  if text = [] then none else groupOfLine (firstLine text)

/- The number an entry of `/proc` is named by. -/
def entryPid (name : Str) : Pid :=
  match strtol name with
  | none => toPid 0
  | some (n, _) => toPid n

/- One entry of the loop of `FindPidsInProcessGroup`. -/
def memberEntry
    (t : ProcTable)
    (pgid : Pid)
    (name : Str) :
    Option Pid :=
  if isNumericName name then
    let pid := entryPid name
    match (t.stat pid).bind readProcessGroup with
    | none => none
    | some group => if group = pgid then some pid else none
  else
    none

/- `FindPidsInProcessGroup`. -/
def findPidsInProcessGroup
    (t : ProcTable)
    (pgid : Pid) :
    List Pid :=
  (t.entries.filterMap (memberEntry t pgid)).mergeSort
    (fun a b => decide (a ≤ b))

/-
  The processes of a group, in ascending order and each once.
-/
structure ListsGroup
    (t : ProcTable)
    (pgid : Pid)
    (pids : List Pid) : Prop where
  ascending : pids.Pairwise (· < ·)
  members : ∀ pid, pid ∈ pids ↔
    ∃ p ∈ t.processes, p.pid = pid ∧ p.group = pgid

end Drex

------------------------------------------------------------
-- Numbers And Lines
------------------------------------------------------------

namespace Drex

/- A number is read back, with what stands after it. -/
theorem strtol_decimal
    {blanks rest : Str}
    (n : Int)
    (hBlanks : ∀ c ∈ blanks, isSpace c = true)
    (hRest : ∀ c ∈ rest.head?, c.isDigit = false) :
    strtol (blanks ++ (decimal n ++ rest)) =
      some (n, rest) := by
  cases n with
  | ofNat m =>
      have hNumber :=
        strtol_digits hBlanks
          (fun _ hMem => isDigit_of_mem_toDigits hMem)
          (Nat.toDigits_ne_nil (n := m) (b := 10)) hRest
      rw [Nat.ofDigitChars_ten_toDigits] at hNumber
      exact hNumber
  | negSucc m =>
      have hDigits :
          ∀ c ∈ Nat.toDigits 10 (m + 1), c.isDigit = true :=
        fun _ hMem => isDigit_of_mem_toDigits hMem
      rcases takeWhile_digits hDigits hRest with
        ⟨hTake, hDrop⟩
      have hText :
          (blanks ++
                ('-' :: Nat.toDigits 10 (m + 1) ++
                  rest)).dropWhile isSpace =
            '-' :: (Nat.toDigits 10 (m + 1) ++ rest) := by
        rw [List.dropWhile_append_of_pos hBlanks]
        rfl
      unfold strtol decimal
      simp only [hText, List.head?_cons, List.tail_cons,
        true_or, if_true, hTake, hDrop,
        Nat.toDigits_ne_nil, if_false, decide_true]
      rw [Nat.ofDigitChars_ten_toDigits]
      rfl

end Drex

------------------------------------------------------------
-- One Process
------------------------------------------------------------

namespace Drex

/- The last `)` is the one before a text without any. -/
theorem afterLastParen_of_not_mem
    {text : Str}
    (h : ')' ∉ text) :
    afterLastParen text = none := by
  induction text with
  | nil => rfl
  | cons c text ih =>
      rw [List.mem_cons, not_or] at h
      rw [afterLastParen, ih h.2]
      exact if_neg (Ne.symm h.1)

theorem afterLastParen_last
    (before : Str)
    {after : Str}
    (h : ')' ∉ after) :
    afterLastParen (before ++ ')' :: after) =
      some after := by
  induction before with
  | nil =>
      rw [List.nil_append, afterLastParen,
        afterLastParen_of_not_mem h]
      rfl
  | cons c before ih =>
      rw [List.cons_append, afterLastParen, ih]

/- Nothing before the name holds a `)`. -/
theorem afterLastParen_append
    {before : Str}
    (h : ')' ∉ before)
    (text : Str) :
    afterLastParen (before ++ text) =
      afterLastParen text := by
  induction before with
  | nil => rfl
  | cons c before ih =>
      rw [List.mem_cons, not_or] at h
      rw [List.cons_append, afterLastParen, ih h.2]
      cases afterLastParen text with
      | none => exact if_neg (Ne.symm h.1)
      | some after => rfl

theorem not_mem_decimal
    {c : Char}
    (hDigit : c.isDigit = false)
    (hMinus : c ≠ '-')
    (n : Int) :
    c ∉ decimal n := by
  have hDigits : ∀ m, c ∉ Nat.toDigits 10 m := by
    intro m hMem
    rw [isDigit_of_mem_toDigits hMem] at hDigit
    cases hDigit
  cases n with
  | ofNat m => exact hDigits m
  | negSucc m =>
      intro hMem
      rcases List.mem_cons.mp hMem with hEq | hMem
      · exact hMinus hEq
      · exact hDigits _ hMem

namespace ProcStat

variable (p : ProcStat)

/- The fields after the name are letters and numbers. -/
theorem not_mem_fields
    {c : Char}
    (hLetter : c.isAlpha = false)
    (hDigit : c.isDigit = false)
    (hMinus : c ≠ '-')
    (hBlank : c ≠ ' ') :
    c ∉ p.fields := by
  have hState : c ≠ p.state := by
    rintro rfl
    rw [p.state_letter] at hLetter
    cases hLetter
  have hRest : c ∉ p.rest := by
    intro hMem
    rcases p.rest_plain c hMem with hEq | hEq | hEq
    · rw [hEq] at hDigit
      cases hDigit
    · exact hBlank hEq
    · exact hMinus hEq
  simp only [fields, List.mem_append, List.mem_cons, not_or]
  exact
    ⟨⟨⟨hState, hBlank, not_mem_decimal hDigit hMinus _⟩,
        hBlank, not_mem_decimal hDigit hMinus _⟩, hRest⟩

theorem state_not_space : isSpace p.state = false := by
  have hLetter := p.state_letter
  generalize p.state = c at hLetter
  have hRange : 65 ≤ c.toNat := by
    have hCases : c.isUpper = true ∨ c.isLower = true := by
      rw [← Bool.or_eq_true]
      exact hLetter
    rcases hCases with hUpper | hLower
    · have hBounds : 'A'.val ≤ c.val ∧ c.val ≤ 'Z'.val :=
        of_decide_eq_true hUpper
      exact UInt32.le_iff_toNat_le.mp hBounds.1
    · have hBounds := (Bool.and_eq_true _ _).mp hLower
      have hLow : 'a'.val ≤ c.val :=
        of_decide_eq_true hBounds.1
      exact
        le_trans (by decide) (UInt32.le_iff_toNat_le.mp hLow)
  have hBlank : c ≠ ' ' := by
    rintro rfl
    simp at hRange
  simp only [isSpace, hBlank, decide_false, Bool.false_or,
    Bool.and_eq_false_iff, decide_eq_false_iff_not]
  omega

/- A `pid_t` fits a `long` and comes back from one. -/
theorem readLong_decimal
    {n : Int}
    (rest : Str)
    (hRange : -2147483648 ≤ n ∧ n < 2147483648)
    (hRest : ∀ c ∈ rest.head?, c.isDigit = false) :
    readLong (' ' :: (decimal n ++ rest)) =
      some (n, rest) := by
  have hBlanks : ∀ c ∈ [' '], isSpace c = true := by
    intro c hMem
    rw [List.mem_singleton] at hMem
    rw [hMem]
    decide
  have hNumber := strtol_decimal n hBlanks hRest
  rw [List.singleton_append] at hNumber
  unfold readLong
  rw [hNumber]
  simp only [Option.bind_eq_bind, Option.bind_some]
  exact if_pos (by omega)

theorem toPid_of_range
    {n : Int}
    (hRange : -2147483648 ≤ n ∧ n < 2147483648) :
    toPid n = n := by
  apply Int.bmod_eq_of_le
  · omega
  · omega

/- The fields after the name spell the group. -/
theorem groupField_fields :
    groupField p.fields = some p.group := by
  have hChar :
      readChar p.fields =
        some (p.state,
          ' ' :: (decimal p.ppid ++
            ' ' :: (decimal p.group ++ p.rest))) := by
    unfold readChar fields
    rw [List.append_assoc, List.cons_append,
      List.dropWhile_cons_of_neg (by simp [p.state_not_space])]
    simp
  have hRest : ∀ c ∈ p.rest.head?, c.isDigit = false := by
    intro c hMem
    rw [p.rest_start c hMem]
    rfl
  have hParent :=
    readLong_decimal (' ' :: (decimal p.group ++ p.rest))
      p.ppid_range (by simp)
  have hGroup := readLong_decimal p.rest p.group_range hRest
  unfold groupField
  rw [hChar]
  simp only [Option.bind_eq_bind, Option.bind_some, hParent,
    hGroup]
  rw [toPid_of_range p.group_range]
  rfl

/- What a name without a newline leaves of the line. -/
theorem firstLine_append
    {before : Str}
    (h : '\n' ∉ before)
    (text : Str) :
    firstLine (before ++ text) = before ++ firstLine text := by
  unfold firstLine
  apply List.takeWhile_append_of_pos
  intro c hMem
  have hNe : c ≠ '\n' := by
    rintro rfl
    exact h hMem
  simpa using hNe

theorem firstLine_of_mem
    {text : Str}
    (h : '\n' ∈ text)
    (after : Str) :
    firstLine (text ++ after) = firstLine text := by
  induction text with
  | nil => cases h
  | cons c text ih =>
      unfold firstLine at ih ⊢
      rw [List.cons_append]
      by_cases hNewline : c = '\n'
      · subst hNewline
        simp
      · have hMem : '\n' ∈ text := by
          simpa [Ne.symm hNewline] using h
        rw [List.takeWhile_cons_of_pos (by simpa),
          List.takeWhile_cons_of_pos (by simpa), ih hMem]

/- What stands before the name holds nothing special. -/
theorem not_mem_before
    {c : Char}
    (hDigit : c.isDigit = false)
    (hMinus : c ≠ '-')
    (hBlank : c ∉ " (".toList) :
    c ∉ decimal p.pid ++ " (".toList := by
  rw [List.mem_append, not_or]
  exact ⟨not_mem_decimal hDigit hMinus _, hBlank⟩

/- A name on one line leaves the group readable. -/
theorem readProcessGroup_oneLine
    (hName : '\n' ∉ p.comm) :
    readProcessGroup p.statText = some p.group := by
  have hFields : ')' ∉ ' ' :: p.fields := by
    rw [List.mem_cons, not_or]
    exact
      ⟨by decide,
        p.not_mem_fields (by decide) (by decide) (by decide)
          (by decide)⟩
  have hText :
      p.statText =
        (decimal p.pid ++ " (".toList ++ p.comm ++
          ')' :: ' ' :: p.fields) ++ ['\n'] := by
    simp [statText]
  have hPlain :
      '\n' ∉ decimal p.pid ++ " (".toList ++ p.comm ++
        ')' :: ' ' :: p.fields := by
    have hBefore : '\n' ∉ decimal p.pid ++ " (".toList :=
      p.not_mem_before (by decide) (by decide) (by decide)
    have hAfter : '\n' ∉ p.fields :=
      p.not_mem_fields (by decide) (by decide) (by decide)
        (by decide)
    simp only [List.mem_append, List.mem_cons, not_or]
      at hBefore ⊢
    exact
      ⟨⟨hBefore, hName⟩, by decide, by decide, hAfter⟩
  have hLine :
      firstLine p.statText =
        decimal p.pid ++ " (".toList ++ p.comm ++
          ')' :: ' ' :: p.fields := by
    rw [hText, firstLine_append hPlain]
    simp [firstLine]
  have hLength : ¬(' ' :: p.fields).length < 2 := by
    simp [fields]
  unfold readProcessGroup
  rw [if_neg (by simp [statText]), hLine, groupOfLine,
    afterLastParen_last _ hFields]
  simp only [hLength, if_false]
  exact p.groupField_fields

/-
  Of a name with a newline only the first line is read, as
  if it were the line of the file.
-/
theorem readProcessGroup_newline
    (hName : '\n' ∈ p.comm) :
    readProcessGroup p.statText =
      groupOfLine (firstLine p.comm) := by
  have hBefore : '\n' ∉ decimal p.pid ++ " (".toList :=
    p.not_mem_before (by decide) (by decide) (by decide)
  have hParen : ')' ∉ decimal p.pid ++ " (".toList :=
    p.not_mem_before (by decide) (by decide) (by decide)
  have hText :
      p.statText =
        (decimal p.pid ++ " (".toList) ++
          (p.comm ++ (") ".toList ++ p.fields ++ ['\n'])) := by
    simp [statText]
  unfold readProcessGroup
  rw [if_neg (by simp [statText]), hText,
    firstLine_append hBefore, firstLine_of_mem hName,
    groupOfLine, afterLastParen_append hParen]
  rfl

end ProcStat

end Drex

------------------------------------------------------------
-- The Whole Table
------------------------------------------------------------

namespace Drex

namespace ProcTable

variable {t : ProcTable}

theorem stat_of_mem
    {p : ProcStat}
    (hMem : p ∈ t.processes) :
    t.stat p.pid = some p.statText := by
  have hFind :
      ∀ processes : List ProcStat,
        (processes.map ProcStat.pid).Nodup →
          p ∈ processes →
            processes.find? (fun q => q.pid = p.pid) =
              some p := by
    intro processes hNodup hMem
    induction processes with
    | nil => cases hMem
    | cons q processes ih =>
        rw [List.map_cons, List.nodup_cons] at hNodup
        rcases List.mem_cons.mp hMem with rfl | hMem
        · simp
        · have hNe : q.pid ≠ p.pid := by
            intro hEq
            apply hNodup.1
            rw [hEq]
            exact List.mem_map_of_mem hMem
          rw [List.find?_cons_of_neg (by simpa using hNe)]
          exact ih hNodup.2 hMem
  unfold stat
  rw [hFind t.processes t.pids_nodup hMem]
  rfl

end ProcTable

theorem isNumericName_decimal (p : ProcStat) :
    isNumericName (decimal p.pid) = true := by
  rcases Int.eq_ofNat_of_zero_le p.pid_pos.le with ⟨n, hn⟩
  rw [hn]
  have hAll :
      (Nat.toDigits 10 n).all Char.isDigit = true := by
    rw [List.all_eq_true]
    intro c hMem
    exact isDigit_of_mem_toDigits hMem
  change
    (decide (Nat.toDigits 10 n ≠ []) &&
      (Nat.toDigits 10 n).all Char.isDigit) = true
  rw [hAll]
  simp

theorem entryPid_decimal (p : ProcStat) :
    entryPid (decimal p.pid) = p.pid := by
  have hNumber :=
    @strtol_decimal [] [] p.pid (by simp) (by simp)
  rw [List.nil_append, List.append_nil] at hNumber
  unfold entryPid
  rw [hNumber]
  have hPos : (0 : Int) < p.pid := p.pid_pos
  exact ProcStat.toPid_of_range ⟨by omega, p.pid_lt⟩

/- The group the code reads for a process. -/
def groupRead (p : ProcStat) : Option Pid :=
  readProcessGroup p.statText

/- An entry of `/proc` adds a process of the group as read. -/
theorem memberEntry_eq_some_iff
    {t : ProcTable}
    {pgid pid : Pid}
    {name : Str}
    (hName : name ∈ t.entries) :
    memberEntry t pgid name = some pid ↔
      ∃ p ∈ t.processes, name = decimal p.pid ∧
        p.pid = pid ∧ groupRead p = some pgid := by
  have hProcess : ∀ p ∈ t.processes,
      memberEntry t pgid (decimal p.pid) =
        if groupRead p = some pgid then
          some p.pid
        else
          none := by
    intro p hMem
    unfold memberEntry groupRead
    rw [if_pos (isNumericName_decimal p), entryPid_decimal]
    simp only [ProcTable.stat_of_mem hMem, Option.bind_some]
    cases readProcessGroup p.statText with
    | none => simp
    | some group => simp
  cases hNumeric : isNumericName name with
  | false =>
      constructor
      · intro hEntry
        rw [memberEntry, if_neg (by simp [hNumeric])]
          at hEntry
        cases hEntry
      · rintro ⟨p, hMem, rfl, hPid, hGroup⟩
        rw [isNumericName_decimal] at hNumeric
        cases hNumeric
  | true =>
      rcases (t.listed name hNumeric).mp hName with
        ⟨p, hMem, rfl⟩
      constructor
      · intro hEntry
        rw [hProcess p hMem] at hEntry
        split at hEntry
        · rename_i hGroup
          exact
            ⟨p, hMem, rfl, Option.some.inj hEntry, hGroup⟩
        · cases hEntry
      · rintro ⟨q, hOther, hEq, rfl, hGroup⟩
        rw [hEq, hProcess q hOther, if_pos hGroup]

/- The code finds the processes whose group it reads so. -/
theorem mem_findPidsInProcessGroup_iff
    (t : ProcTable)
    (pgid pid : Pid) :
    pid ∈ findPidsInProcessGroup t pgid ↔
      ∃ p ∈ t.processes, p.pid = pid ∧
        groupRead p = some pgid := by
  unfold findPidsInProcessGroup
  rw [List.mem_mergeSort, List.mem_filterMap]
  constructor
  · rintro ⟨name, hName, hEntry⟩
    rcases (memberEntry_eq_some_iff hName).mp hEntry with
      ⟨p, hMem, _, hPid, hGroup⟩
    exact ⟨p, hMem, hPid, hGroup⟩
  · rintro ⟨p, hMem, hPid, hGroup⟩
    have hName : decimal p.pid ∈ t.entries :=
      (t.listed _ (isNumericName_decimal p)).mpr
        ⟨p, hMem, rfl⟩
    exact
      ⟨_, hName,
        (memberEntry_eq_some_iff hName).mpr
          ⟨p, hMem, rfl, hPid, hGroup⟩⟩

theorem findPidsInProcessGroup_ascending
    (t : ProcTable)
    (pgid : Pid) :
    (findPidsInProcessGroup t pgid).Pairwise (· < ·) := by
  have hNodup :
      (t.entries.filterMap (memberEntry t pgid)).Nodup := by
    apply List.pairwise_filterMap.mpr
    refine t.entries_nodup.imp_of_mem ?_
    rintro name name' hName hName' hNe pid hPid pid' hPid' rfl
    rcases (memberEntry_eq_some_iff hName).mp hPid with
      ⟨p, hMem, hEq, hOwn, _⟩
    rcases (memberEntry_eq_some_iff hName').mp hPid' with
      ⟨q, hOther, hEq', hOwn', _⟩
    apply hNe
    rw [hEq, hEq', hOwn, hOwn']
  have hSorted :
      (findPidsInProcessGroup t pgid).Pairwise
        (fun a b => decide (a ≤ b) = true) := by
    apply List.pairwise_mergeSort
    · intro a b c hAB hBC
      simp only [decide_eq_true_eq] at *
      exact Int.le_trans hAB hBC
    · intro a b
      simpa using Int.le_total a b
  have hDistinct :
      (findPidsInProcessGroup t pgid).Nodup :=
    List.nodup_mergeSort.mpr hNodup
  refine (hSorted.and hDistinct).imp ?_
  rintro a b ⟨hLe, hNe⟩
  exact
    Int.lt_iff_le_and_ne.mpr ⟨by simpa using hLe, hNe⟩

/-
  The group is found exactly when every process whose name
  has a newline is read in the group it is in.
-/
theorem listsGroup_iff
    (t : ProcTable)
    (pgid : Pid) :
    ListsGroup t pgid (findPidsInProcessGroup t pgid) ↔
      ∀ p ∈ t.processes, '\n' ∈ p.comm →
        (groupOfLine (firstLine p.comm) = some pgid ↔
          p.group = pgid) := by
  have hUnique : ∀ p ∈ t.processes, ∀ q ∈ t.processes,
      q.pid = p.pid → q = p := by
    intro p hMem q hOther hEq
    exact
      List.inj_on_of_nodup_map t.pids_nodup hOther hMem hEq
  constructor
  · intro hLists p hMem hName
    rw [← p.readProcessGroup_newline hName]
    have hIff := hLists.members p.pid
    rw [mem_findPidsInProcessGroup_iff] at hIff
    constructor
    · intro hGroup
      rcases hIff.mp ⟨p, hMem, rfl, hGroup⟩ with
        ⟨q, hOther, hPid, hMember⟩
      rw [hUnique p hMem q hOther hPid] at hMember
      exact hMember
    · intro hGroup
      rcases hIff.mpr ⟨p, hMem, rfl, hGroup⟩ with
        ⟨q, hOther, hPid, hMember⟩
      rw [hUnique p hMem q hOther hPid] at hMember
      exact hMember
  · intro hNames
    have hRead : ∀ p ∈ t.processes,
        (groupRead p = some pgid ↔ p.group = pgid) := by
      intro p hMem
      by_cases hName : '\n' ∈ p.comm
      · unfold groupRead
        rw [p.readProcessGroup_newline hName]
        exact hNames p hMem hName
      · unfold groupRead
        rw [p.readProcessGroup_oneLine hName,
          Option.some.injEq]
    refine
      ⟨findPidsInProcessGroup_ascending t pgid, ?_⟩
    intro pid
    rw [mem_findPidsInProcessGroup_iff]
    constructor
    · rintro ⟨p, hMem, hPid, hGroup⟩
      exact ⟨p, hMem, hPid, (hRead p hMem).mp hGroup⟩
    · rintro ⟨p, hMem, hPid, hGroup⟩
      exact ⟨p, hMem, hPid, (hRead p hMem).mpr hGroup⟩

end Drex

------------------------------------------------------------
-- The Hints Of A Group
------------------------------------------------------------

namespace Drex

open Drex.Core.Prog

/- `fs::exists` threw on the path of `xcli`. -/
def ServerEvent.probeThrows : ServerEvent → Bool
| ⟨.exists _, .error⟩ => true
| _ => false

def probeThrows (trace : List ServerEvent) : Bool :=
  trace.any ServerEvent.probeThrows

theorem probeThrows_append
    (first second : List ServerEvent) :
    probeThrows (first ++ second) =
      (probeThrows first || probeThrows second) :=
  List.any_append

variable {allowed : (op : ServerOp) → Resp op → Prop}

/- The program of a hint throws exactly with the probe. -/
theorem produces_runXcliHint_throws
    (pid : Pid)
    (utilization : Int) :
    Produces allowed (runXcliHint pid utilization)
      (fun hinted trace =>
        hinted = none ↔ probeThrows trace = true) := by
  have hPath :
      Produces allowed getXcliPath
        (fun _ trace => probeThrows trace = false) := by
    unfold getXcliPath
    apply produces_call
    intro env _
    cases env with
    | none => exact produces_pure rfl
    | some value =>
        simp only []
        split
        · exact produces_pure rfl
        · exact produces_pure rfl
  unfold runXcliHint
  refine produces_bind hPath ?_
  intro xcli first hFirst
  apply produces_call
  intro xcliFound _
  cases xcliFound with
  | error =>
      apply produces_pure
      rw [probeThrows_append, hFirst]
      exact ⟨fun _ => rfl, fun _ => rfl⟩
  | missing =>
      apply produces_pure
      rw [probeThrows_append, hFirst]
      exact ⟨nofun, nofun⟩
  | found =>
      apply produces_call
      intro result _
      cases result with
      | forkFailed =>
          apply produces_call
          intro errno _
          apply produces_pure
          rw [probeThrows_append, hFirst]
          exact ⟨nofun, nofun⟩
      | waitFailed =>
          apply produces_call
          intro errno _
          apply produces_pure
          rw [probeThrows_append, hFirst]
          exact ⟨nofun, nofun⟩
      | finished status =>
          simp only []
          split
          · apply produces_pure
            rw [probeThrows_append, hFirst]
            exact ⟨nofun, nofun⟩
          · apply produces_pure
            rw [probeThrows_append, hFirst]
            exact ⟨nofun, nofun⟩

/-
  `RunXcliHint` was run for each of these processes in turn,
  and succeeded for the second list of them.
-/
inductive HintRuns
    (allowed : (op : ServerOp) → Resp op → Prop)
    (utilization : Int) :
    List Pid → List Pid → List ServerEvent → Prop
| nil : HintRuns allowed utilization [] [] []
| succeeded
    {pid : Pid}
    {pids done : List Pid}
    {first rest : List ServerEvent}
    (hHint :
      Finishes allowed (runXcliHint pid utilization) first
        (some none))
    (hRest : HintRuns allowed utilization pids done rest) :
    HintRuns allowed utilization (pid :: pids) (pid :: done)
      (first ++ rest)
| failed
    {pid : Pid}
    {error : Str}
    {pids done : List Pid}
    {first rest : List ServerEvent}
    (hHint :
      Finishes allowed (runXcliHint pid utilization) first
        (some (some error)))
    (hRest : HintRuns allowed utilization pids done rest) :
    HintRuns allowed utilization (pid :: pids) done
      (first ++ rest)

/- The loop hints every process unless a probe throws. -/
theorem hintAll_cases
    {utilization : Int}
    {pids updated : List Pid}
    {lastError : Str}
    {trace : List ServerEvent}
    {hinted : Option (List Pid × Str)}
    (h :
      Finishes allowed
        (hintAll utilization pids updated lastError) trace
        hinted) :
    (hinted = none ∧ probeThrows trace = true) ∨
      (probeThrows trace = false ∧
        ∃ done error,
          hinted = some (updated ++ done, error) ∧
            HintRuns allowed utilization pids done
              trace) := by
  induction pids generalizing updated lastError trace with
  | nil =>
      rcases runs_pure_iff.mp h with ⟨rfl, rfl, _⟩
      refine Or.inr ⟨rfl, [], lastError, ?_, .nil⟩
      rw [List.append_nil]
  | cons pid pids ih =>
      unfold hintAll at h
      rcases finishes_bind_iff.mp h with
        ⟨first, result, rest, rfl, hHint, hRest⟩
      have hThrows :=
        produces_runXcliHint_throws pid utilization first
          result hHint
      rw [probeThrows_append]
      rcases result with _ | _ | error
      · rcases runs_pure_iff.mp hRest with ⟨rfl, rfl, _⟩
        exact Or.inl ⟨rfl, by rw [hThrows.mp rfl]; rfl⟩
      · have hQuiet : probeThrows first = false := by
          rw [← Bool.not_eq_true, ← hThrows]
          exact Option.some_ne_none _
        rw [hQuiet, Bool.false_or]
        rcases ih hRest with
          hThrew | ⟨hNone, done, error, hDone, hRuns⟩
        · exact Or.inl hThrew
        · refine
            Or.inr
              ⟨hNone, pid :: done, error, ?_,
                .succeeded hHint hRuns⟩
          rw [hDone, List.append_assoc]
          rfl
      · have hQuiet : probeThrows first = false := by
          rw [← Bool.not_eq_true, ← hThrows]
          exact Option.some_ne_none _
        rw [hQuiet, Bool.false_or]
        rcases ih hRest with
          hThrew | ⟨hNone, done, error, hDone, hRuns⟩
        · exact Or.inl hThrew
        · exact
            Or.inr
              ⟨hNone, done, error, hDone,
                .failed hHint hRuns⟩

/- The process table answers the scan. -/
def ProcTable.Scanned
    (t : ProcTable) :
    (op : ServerOp) → Resp op → Prop
| .findPidsInProcessGroup pgid, r =>
    r = some (findPidsInProcessGroup t pgid)
| _, _ => True

/-
  An update of a registered group hinted exactly its members
  in ascending order; it is a success that lists those whose
  hint succeeded if there are any, and a failure otherwise.
-/
def HintsGroup
    (t : ProcTable)
    (workspaceSubdir : Str)
    (pgid : Pid)
    (utilization : Int)
    (trace : List ServerEvent)
    (result : Option UtilizationUpdateResult) :
    Prop :=
  ∃ members done hints r,
    trace =
        ⟨.findTaskProcessGroup workspaceSubdir, some pgid⟩ ::
          ⟨.findPidsInProcessGroup pgid, some members⟩ ::
            hints ∧
      ListsGroup t pgid members ∧
        HintRuns t.Scanned utilization members done hints ∧
          result = some r ∧
            (r.success = true ↔ done ≠ []) ∧
              (r.success = true → r.pids = done)

/- A run of an update that found a registered group. -/
theorem updateTask_cases
    {t : ProcTable}
    {workspaceSubdir : Str}
    {pgid : Pid}
    {utilization : Int}
    {trace : List ServerEvent}
    {result : Option UtilizationUpdateResult}
    (h :
      Finishes t.Scanned
        (updateTaskProcessUtilization workspaceSubdir
          utilization)
        trace result)
    (hFound :
      trace.head? =
        some
          ⟨.findTaskProcessGroup workspaceSubdir,
            some pgid⟩) :
    ∃ hints,
      trace =
          ⟨.findTaskProcessGroup workspaceSubdir,
              some pgid⟩ ::
            ⟨.findPidsInProcessGroup pgid,
              some (findPidsInProcessGroup t pgid)⟩ ::
              hints ∧
        ((result = none ∧ probeThrows hints = true) ∨
          (probeThrows hints = false ∧
            ∃ done r,
              HintRuns t.Scanned utilization
                  (findPidsInProcessGroup t pgid) done
                  hints ∧
                result = some r ∧
                  (r.success = true ↔ done ≠ []) ∧
                    (r.success = true → r.pids = done))) := by
  unfold updateTaskProcessUtilization at h
  split at h
  · rcases runs_pure_iff.mp h with ⟨rfl, _, _⟩
    cases hFound
  · split at h
    · rcases runs_pure_iff.mp h with ⟨rfl, _, _⟩
      cases hFound
    · cases h with
      | call hGroup hRest =>
          cases hFound
          cases hRest with
          | call hListed hHints =>
              subst hListed
              refine ⟨_, rfl, ?_⟩
              cases hPids : findPidsInProcessGroup t pgid with
              | nil =>
                  rw [hPids] at hHints
                  rcases runs_pure_iff.mp hHints with
                    ⟨rfl, rfl, _⟩
                  refine
                    Or.inr ⟨rfl, [], _, .nil, rfl, ?_, ?_⟩
                  · simp [UtilizationUpdateResult.failure]
                  · exact fun _ => rfl
              | cons pid pids =>
                  rw [hPids] at hHints
                  rcases finishes_bind_iff.mp hHints with
                    ⟨_, _, rest, rfl, hScan, hRest⟩
                  rcases runs_pure_iff.mp hScan with
                    ⟨rfl, rfl, _⟩
                  rw [List.nil_append]
                  rcases finishes_bind_iff.mp hRest with
                    ⟨first, hinted, second, rfl, hAll,
                      hReply⟩
                  rcases hintAll_cases hAll with
                    ⟨rfl, hThrows⟩ |
                    ⟨hQuiet, done, error, rfl, hRuns⟩
                  · rcases runs_pure_iff.mp hReply with
                      ⟨rfl, rfl, _⟩
                    rw [List.append_nil]
                    exact Or.inl ⟨rfl, hThrows⟩
                  · rw [List.nil_append] at hReply
                    simp only [] at hReply
                    split at hReply
                    · rename_i hEmpty
                      rcases runs_pure_iff.mp hReply with
                        ⟨rfl, rfl, _⟩
                      rw [List.append_nil]
                      refine
                        Or.inr
                          ⟨hQuiet, done, _, hRuns, rfl, ?_,
                            ?_⟩
                      · simp [UtilizationUpdateResult.failure,
                          hEmpty]
                      · intro hSuccess
                        cases hSuccess
                    · rename_i hDone
                      rcases runs_pure_iff.mp hReply with
                        ⟨rfl, rfl, _⟩
                      rw [List.append_nil]
                      exact
                        Or.inr
                          ⟨hQuiet, done, _, hRuns, rfl,
                            ⟨fun _ => hDone, fun _ => rfl⟩,
                            fun _ => rfl⟩

/-
  A process whose name has a newline is read by the first
  line of the name.  The names tell the group if that line
  reads as the group exactly for its members.
-/
def NamesTell (t : ProcTable) (pgid : Pid) : Prop :=
  ∀ p ∈ t.processes, '\n' ∈ p.comm →
    (groupOfLine (firstLine p.comm) = some pgid ↔
      p.group = pgid)

/-
  The scan finds the group exactly when the names tell it,
  and an update of the group hints exactly its members when,
  besides, looking for `xcli` does not throw.
-/
theorem group_discovery_iff
    (t : ProcTable)
    (pgid : Pid) :
    (ListsGroup t pgid (findPidsInProcessGroup t pgid) ↔
        NamesTell t pgid) ∧
      ∀ workspaceSubdir utilization trace result,
        Finishes t.Scanned
            (updateTaskProcessUtilization workspaceSubdir
              utilization)
            trace result →
          trace.head? =
              some
                ⟨.findTaskProcessGroup workspaceSubdir,
                  some pgid⟩ →
            (HintsGroup t workspaceSubdir pgid utilization
                trace result ↔
              NamesTell t pgid ∧
                probeThrows trace = false) := by
  refine ⟨listsGroup_iff t pgid, ?_⟩
  intro workspaceSubdir utilization trace result hRun hFound
  rcases updateTask_cases hRun hFound with
    ⟨hints, rfl, hEnds⟩
  have hThrows :
      probeThrows
          (⟨.findTaskProcessGroup workspaceSubdir,
              some pgid⟩ ::
            ⟨.findPidsInProcessGroup pgid,
              some (findPidsInProcessGroup t pgid)⟩ ::
              hints) =
        probeThrows hints := rfl
  rw [hThrows]
  unfold NamesTell
  rw [← listsGroup_iff t pgid]
  constructor
  · rintro ⟨members, done, hints', r, hTrace, hLists, hRuns,
      hResult, hSuccess, hPids⟩
    rcases List.cons.inj hTrace with ⟨_, hTail⟩
    rcases List.cons.inj hTail with ⟨hScan, _⟩
    cases hScan
    refine ⟨hLists, ?_⟩
    rcases hEnds with ⟨hNone, _⟩ | ⟨hQuiet, _⟩
    · rw [hNone] at hResult
      cases hResult
    · exact hQuiet
  · rintro ⟨hLists, hQuiet⟩
    rcases hEnds with
      ⟨_, hThrew⟩ | ⟨_, done, r, hRuns, hResult, hRest⟩
    · rw [hThrew] at hQuiet
      cases hQuiet
    · exact
        ⟨_, done, hints, r, rfl, hLists, hRuns, hResult,
          hRest⟩

/- A process with the given name in a group of its own. -/
def smallProcess (comm : Str) : ProcStat :=
  { pid := 7
    comm := comm
    state := 'S'
    ppid := 1
    group := 7
    rest := []
    pid_pos := by decide
    pid_lt := by decide
    state_letter := by decide
    ppid_range := by decide
    group_range := by decide
    rest_plain := by simp
    rest_start := by simp }

/- A table of that process alone. -/
def smallTable (comm : Str) : ProcTable :=
  { processes := [smallProcess comm]
    entries := ["self".toList, "7".toList]
    pids_nodup := by simp
    entries_nodup := by decide
    listed := by
      intro name hNumeric
      have hSeven : decimal 7 = "7".toList := by decide
      have hSelf : name ≠ ['s', 'e', 'l', 'f'] := by
        rintro rfl
        exact absurd hNumeric (by decide)
      simp [smallProcess, hSeven, hSelf] }

/-
  Two processes of one group, and one of another whose name
  reads like the end of a name.
-/
def twoGroups : ProcTable :=
  { processes :=
      [smallProcess "sh".toList,
        { smallProcess "sleep".toList with
          pid := 12
          pid_pos := by decide
          pid_lt := by decide },
        { smallProcess ") S 1 7 (".toList with
          pid := 9
          group := 9
          pid_pos := by decide
          pid_lt := by decide
          group_range := by decide }]
    entries :=
      ["12".toList, "self".toList, "9".toList, "7".toList]
    pids_nodup := by decide
    entries_nodup := by decide
    listed := by
      intro name hNumeric
      have hSeven : decimal 7 = "7".toList := by decide
      have hNine : decimal 9 = "9".toList := by decide
      have hTwelve : decimal 12 = "12".toList := by decide
      have hSelf : name ≠ "self".toList := by
        rintro rfl
        exact absurd hNumeric (by decide)
      simp only [List.mem_cons, hSelf]
      grind [smallProcess] }

theorem findPidsInProcessGroup_twoGroups :
    findPidsInProcessGroup twoGroups 7 = [7, 12] := by
  have hEntries :
      twoGroups.entries.filterMap (memberEntry twoGroups 7) =
        [12, 7] := by
    decide +kernel
  rw [findPidsInProcessGroup, hEntries]
  simp [List.mergeSort]

/-
  The task's group is found and scanned, and the hint of its
  second process fails.
-/
def foundAnswers (op : ServerOp) : Resp op :=
  match op with
  | .findTaskProcessGroup _ => some 7
  | .findPidsInProcessGroup pgid =>
      some
        (if 7 = pgid then [7, 12]
        else findPidsInProcessGroup twoGroups pgid)
  | .xcliHint _ pid _ =>
      .finished (if pid = 12 then 256 else 0)
  | op => Env.granting.answer op

theorem foundAnswers_scanned (op : ServerOp) :
    twoGroups.Scanned op (foundAnswers op) := by
  cases op with
  | findPidsInProcessGroup pgid =>
      refine congrArg some ?_
      split
      · next hEq =>
          rw [← hEq]
          exact findPidsInProcessGroup_twoGroups.symm
      · rfl
  | _ => trivial

/- An update of that task, and its trace. -/
def foundRun :
    Option UtilizationUpdateResult × List ServerEvent :=
  Core.Prog.run
    (fun op trace =>
      (foundAnswers op, trace ++ [⟨op, foundAnswers op⟩]))
    (updateTaskProcessUtilization "w".toList 50) []

/- Both processes of the group are hinted, and no other. -/
theorem group_discovery_twoGroups :
    HintsGroup twoGroups "w".toList 7 50 foundRun.2
      foundRun.1 := by
  rcases
      Core.Prog.finishes_answers foundAnswers
        foundAnswers_scanned
        (updateTaskProcessUtilization "w".toList 50) []
    with ⟨trace, hState, hRun⟩
  have hTrace : foundRun.2 = trace := hState
  have hFinishes :
      Finishes twoGroups.Scanned
        (updateTaskProcessUtilization "w".toList 50)
        foundRun.2 foundRun.1 := by
    rw [hTrace]
    exact hRun
  have hNames : NamesTell twoGroups 7 := by
    unfold NamesTell
    decide
  exact
    ((group_discovery_iff twoGroups 7).2 _ _ _ _ hFinishes
        rfl).mpr
      ⟨hNames, by rfl⟩

/- A process named by a newline is not found in its group. -/
theorem newline_name_not_found :
    ¬∀ (t : ProcTable) (pgid : Pid),
      ListsGroup t pgid (findPidsInProcessGroup t pgid) := by
  intro hFinds
  have hLists := hFinds (smallTable "a\nb".toList) 7
  rw [listsGroup_iff] at hLists
  have hName :=
    hLists (smallProcess "a\nb".toList)
      List.mem_cons_self (by decide)
  exact absurd (hName.mpr rfl) (by decide)

end Drex
