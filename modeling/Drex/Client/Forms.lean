import Drex.Client.Arguments

/-
  What the command line of the integrated client accepts.

  The flag form is compared with the language that its usage
  text describes, and the positional form with the flag form
  of the same values.

  Key definitions include:
    * `overridden`
    * `Accepted`
    * `Valid`
    * `optionsOf`
    * `Agree`
    * `Ineffective`

  Key theorems include:
    * `parseFlags_spelled`
    * `parseArguments_flags`
    * `parseArguments_documented_iff`
    * `parseArguments_positional`
    * `forms_agree_iff`
-/

------------------------------------------------------------
-- Last Occurrences
------------------------------------------------------------

namespace Drex

/- What the last argument that says anything of a kind says. -/
def lastOf
    {T : Type}
    (pick : Argument → Option T)
    (given : List Argument) :
    Option T :=
  (given.filterMap pick).getLast?

theorem lastOf_cons_getD
    {T : Type}
    (pick : Argument → Option T)
    (a : Argument)
    (given : List Argument)
    (otherwise : T) :
    (lastOf pick (a :: given)).getD otherwise =
      (lastOf pick given).getD
        ((pick a).getD otherwise) := by
  unfold lastOf
  cases hPick : pick a with
  | none => rw [List.filterMap_cons_none hPick]; rfl
  | some t =>
      rw [List.filterMap_cons_some hPick, List.getLast?_cons]
      rfl

/- Whether anything of a kind is said. -/
theorem lastOf_isSome_iff
    {T : Type}
    {pick : Argument → Option T}
    {given : List Argument} :
    (lastOf pick given).isSome = true ↔
      ∃ a ∈ given, (pick a).isSome = true := by
  unfold lastOf
  rw [List.getLast?_isSome, ← List.length_pos_iff]
  constructor
  · intro h
    rcases List.exists_mem_of_length_pos h with ⟨t, hMem⟩
    rcases List.mem_filterMap.mp hMem with ⟨a, hA, hPick⟩
    exact ⟨a, hA, by rw [hPick]; rfl⟩
  · rintro ⟨a, hA, hPick⟩
    rcases Option.isSome_iff_exists.mp hPick with ⟨t, hT⟩
    exact
      List.length_pos_of_mem
        (List.mem_filterMap.mpr ⟨a, hA, hT⟩)

/- What is said last is said. -/
theorem mem_of_lastOf
    {T : Type}
    {pick : Argument → Option T}
    {given : List Argument}
    {t : T}
    (h : lastOf pick given = some t) :
    ∃ a ∈ given, pick a = some t :=
  List.mem_filterMap.mp (List.mem_of_getLast? h)

/- The text an argument gives for a flag. -/
def Argument.textFor
    (f : TextFlag) :
    Argument → Option Str
| .text g value => if g = f then some value else none
| _ => none

/- The text an argument gives for a number. -/
def Argument.numberFor
    (f : NumberFlag) :
    Argument → Option Str
| .number g value => if g = f then some value else none
| _ => none

/- The number it gives, as a reader of numbers has it. -/
def Argument.readFor
    (read : Str → Option Int)
    (f : NumberFlag)
    (a : Argument) :
    Option Int :=
  (a.numberFor f).bind read

def lastText
    (f : TextFlag)
    (given : List Argument) :
    Option Str :=
  lastOf (Argument.textFor f) given

def lastNumber
    (read : Str → Option Int)
    (f : NumberFlag)
    (given : List Argument) :
    Option Int :=
  lastOf (Argument.readFor read f) given

/- Options overridden by the last occurrence of each flag. -/
def overridden
    (read : Str → Option Int)
    (given : List Argument)
    (opts : ParsedOptions) :
    ParsedOptions :=
  { controllerAddr :=
      (lastText .controller given).getD opts.controllerAddr
    srcDir := (lastText .srcDir given).getD opts.srcDir
    workspaceSubdir :=
      (lastText .workspaceSubdir given).getD
        opts.workspaceSubdir
    command := (lastText .command given).getD opts.command
    localOutputDir :=
      (lastText .localOutputDir given).getD
        opts.localOutputDir
    resourceType :=
      (lastText .type given).getD opts.resourceType
    resourceCount :=
      (lastNumber read .count given).getD opts.resourceCount
    memReq := (lastNumber read .mem given).getD opts.memReq
    coreReq :=
      (lastNumber read .cores given).getD opts.coreReq
    pid := (lastNumber read .pid given).getD opts.pid
    pty := decide (.pty ∈ given) || opts.pty
    updateUtilization :=
      decide (.updateUtilization ∈ given) ||
        opts.updateUtilization
    taskId := (lastText .taskId given).getD opts.taskId
    xsched :=
      { enabled := opts.xsched.enabled
        xschedUtilization :=
          (lastNumber read .utilization given).getD
            opts.xsched.xschedUtilization } }

@[simp] theorem text_overridden
    (read : Str → Option Int)
    (given : List Argument)
    (opts : ParsedOptions)
    (f : TextFlag) :
    (overridden read given opts).text f =
      (lastText f given).getD (opts.text f) := by
  cases f <;> rfl

@[simp] theorem number_overridden
    (read : Str → Option Int)
    (given : List Argument)
    (opts : ParsedOptions)
    (f : NumberFlag) :
    (overridden read given opts).number f =
      (lastNumber read f given).getD (opts.number f) := by
  cases f <;> rfl

/- `stoi`, where it does not throw. -/
def stoi? (text : Str) : Option Int :=
  (stoi text).toOption

theorem stoi?_eq_some_iff
    {text : Str}
    {n : Int} :
    stoi? text = some n ↔ stoi text = .ok n := by
  unfold stoi?
  cases stoi text with
  | ok m => simp [Except.toOption]
  | error what => simp [Except.toOption]

/- An assignment is one occurrence. -/
theorem overridden_cons
    {opts opts' : ParsedOptions}
    {a : Argument}
    (given : List Argument)
    (h : assignArgument opts a = .ok opts') :
    overridden stoi? (a :: given) opts =
      overridden stoi? given opts' := by
  cases a with
  | pty =>
      cases h
      apply ParsedOptions.ext_fields
      · intro f
        simp [lastText, lastOf_cons_getD, Argument.textFor]
        rfl
      · intro f
        simp [lastNumber, lastOf_cons_getD, Argument.readFor,
          Argument.numberFor]
        rfl
      · simp [overridden]
      · simp [overridden]
      · rfl
  | updateUtilization =>
      cases h
      apply ParsedOptions.ext_fields
      · intro f
        simp [lastText, lastOf_cons_getD, Argument.textFor]
        rfl
      · intro f
        simp [lastNumber, lastOf_cons_getD, Argument.readFor,
          Argument.numberFor]
        rfl
      · simp [overridden]
      · simp [overridden]
      · rfl
  | text f value =>
      cases h
      rcases opts.setText_rest value f with
        ⟨hPty, hUpdate, hEnabled⟩
      apply ParsedOptions.ext_fields
      · intro g
        by_cases hSame : f = g
        · simp [lastText, lastOf_cons_getD,
            Argument.textFor, hSame]
        · simp [lastText, lastOf_cons_getD,
            Argument.textFor, hSame]
      · intro g
        simp [lastNumber, lastOf_cons_getD,
          Argument.readFor, Argument.numberFor]
      · simp [overridden, hPty]
      · simp [overridden, hUpdate]
      · exact hEnabled.symm
  | number f value =>
      rcases hRead : stoi value with what | n
      · rw [assignArgument, hRead] at h
        cases h
      · rw [assignArgument, hRead] at h
        cases h
        have hValue : stoi? value = some n :=
          stoi?_eq_some_iff.mpr hRead
        rcases opts.setNumber_rest n f with
          ⟨hPty, hUpdate, hEnabled⟩
        apply ParsedOptions.ext_fields
        · intro g
          simp [lastText, lastOf_cons_getD,
            Argument.textFor]
        · intro g
          by_cases hSame : f = g
          · simp [lastNumber, lastOf_cons_getD,
              Argument.readFor, Argument.numberFor, hSame,
              hValue]
          · simp [lastNumber, lastOf_cons_getD,
              Argument.readFor, Argument.numberFor, hSame]
        · simp [overridden, hPty]
        · simp [overridden, hUpdate]
        · exact hEnabled.symm

/- Every number given can be read. -/
def Readable (given : List Argument) : Prop :=
  ∀ f value, Argument.number f value ∈ given →
    ∃ n, stoi value = .ok n

/- An argument is assigned where its number is read. -/
theorem assignArgument_isOk_iff
    {opts : ParsedOptions}
    {a : Argument} :
    (∃ opts', assignArgument opts a = .ok opts') ↔
      ∀ f value, a = .number f value →
        ∃ n, stoi value = .ok n := by
  cases a with
  | pty => simp [assignArgument]
  | updateUtilization => simp [assignArgument]
  | text f value => simp [assignArgument]
  | number f value =>
      rcases hRead : stoi value with what | n
      · simp [assignArgument, hRead]
      · simp [assignArgument, hRead]

/- The loop, on documented arguments. -/
theorem parseFlags_spelled
    (progName : Str)
    (given : List Argument)
    (opts opts' : ParsedOptions) :
    parseFlags progName (given.map Argument.spelled) opts =
        .ok opts' ↔
      Readable given ∧
        opts' = overridden stoi? given opts := by
  induction given generalizing opts with
  | nil =>
      have hSame : overridden stoi? [] opts = opts := rfl
      simp [parseFlags, Readable, hSame, eq_comm]
  | cons a given ih =>
      rw [List.map_cons, parseFlags_cons]
      rcases hAssign : assignArgument opts a with e | next
      · have hNot : ¬ Readable (a :: given) := by
          intro hRead
          have hOk : ∃ next, assignArgument opts a = .ok next :=
            assignArgument_isOk_iff.mpr
              fun f value hArg =>
                hRead f value (hArg ▸ List.mem_cons_self)
          rw [hAssign] at hOk
          rcases hOk with ⟨next, hNext⟩
          cases hNext
        simp [hNot]
      · have hHead :=
          assignArgument_isOk_iff.mp ⟨next, hAssign⟩
        have hReadable :
            Readable (a :: given) ↔ Readable given := by
          constructor
          · intro hRead f value hMem
            exact hRead f value (List.mem_cons_of_mem _ hMem)
          · intro hRead f value hMem
            rcases List.mem_cons.mp hMem with hArg | hRest
            · exact hHead f value hArg.symm
            · exact hRead f value hRest
        rw [hReadable, overridden_cons given hAssign]
        exact ih next

/- What the loop takes was documented. -/
theorem spelled_of_parseFlags
    {progName : Str}
    {args : List Str}
    {opts opts' : ParsedOptions}
    (h : parseFlags progName args opts = .ok opts') :
    ∃ given : List Argument,
      args = given.map Argument.spelled := by
  induction args generalizing opts with
  | nil => exact ⟨[], rfl⟩
  | cons arg args ih =>
      rw [parseFlags] at h
      rcases hRead : readArgument arg with _ | a
      · rw [hRead] at h
        cases h
      · rw [hRead] at h
        dsimp only at h
        rcases hAssign : assignArgument opts a with e | next
        · rw [hAssign] at h
          cases h
        · rw [hAssign] at h
          rcases ih h with ⟨given, rfl⟩
          rw [readArgument_eq_some_iff.mp hRead]
          exact ⟨a :: given, rfl⟩

end Drex

------------------------------------------------------------
-- Accepted Arguments
------------------------------------------------------------

namespace Drex

/- Where the flag form leaves a text that is not given. -/
def TextFlag.start : TextFlag → Str
| .localOutputDir => ".".toList
| _ => []

/- A text that is not empty in the end. -/
def Present
    (given : List Argument)
    (f : TextFlag) :
    Prop :=
  (lastText f given).getD f.start ≠ []

/- The texts that the checks of each mode require. -/
def requiredTexts (given : List Argument) : List TextFlag :=
  if .updateUtilization ∈ given then
    [.controller, .workspaceSubdir, .taskId]
  else
    [.command, .localOutputDir, .type]

/- What submission checks of a number: -1 stands for none. -/
def NumberFlag.Passes : NumberFlag → Int → Prop
| .count, n => 0 < n
| .utilization, n => -1 ≤ n ∧ n ≤ 100
| _, n => n = -1 ∨ 0 < n

/-
  The arguments the flag form takes: numbers that start with
  digits, and last values that pass the checks of the mode.
-/
structure Accepted (given : List Argument) : Prop where
  readable : Readable given
  required : ∀ f ∈ requiredTexts given, Present given f
  update :
    .updateUtilization ∈ given →
      ∃ n, lastNumber stoi? .utilization given = some n ∧
        0 ≤ n ∧ n ≤ 100
  submission :
    .updateUtilization ∉ given →
      ∀ f n, lastNumber stoi? f given = some n → f.Passes n

/- A guard lets a result through where it does not hold. -/
theorem ite_error_eq_ok_iff
    {E T : Type}
    {P : Prop}
    [Decidable P]
    {error : E}
    {next : Except E T}
    {t : T} :
    (if P then .error error else next) = .ok t ↔
      ¬ P ∧ next = .ok t := by
  by_cases h : P
  · simp [h]
  · simp [h]

/- The options with the hint switched on or off. -/
def ParsedOptions.withEnabled
    (opts : ParsedOptions)
    (enabled : Bool) :
    ParsedOptions :=
  { opts with
    xsched := { opts.xsched with enabled := enabled } }

/- The checks of an update. -/
theorem checkOptions_update_iff
    {opts opts' : ParsedOptions}
    (hMode : opts.updateUtilization = true) :
    checkOptions opts = .ok opts' ↔
      (opts.controllerAddr ≠ [] ∧
        opts.workspaceSubdir ≠ [] ∧ opts.taskId ≠ [] ∧
        0 ≤ opts.xsched.xschedUtilization ∧
        opts.xsched.xschedUtilization ≤ 100) ∧
      opts' = opts.withEnabled true := by
  rw [checkOptions, if_pos hMode]
  simp only [ite_error_eq_ok_iff, not_or, not_lt,
    Except.ok.injEq, ne_eq, and_assoc]
  simp only [ParsedOptions.withEnabled, eq_comm]

/- The checks of a submission. -/
theorem checkOptions_submission_iff
    {opts opts' : ParsedOptions}
    (hMode : opts.updateUtilization = false) :
    checkOptions opts = .ok opts' ↔
      (opts.command ≠ [] ∧ opts.localOutputDir ≠ [] ∧
        opts.resourceType ≠ [] ∧
        ∀ f : NumberFlag, f.Passes (opts.number f)) ∧
      opts' =
        opts.withEnabled
          (decide (0 ≤ opts.xsched.xschedUtilization)) := by
  have hNot : ¬ opts.updateUtilization = true := by
    rw [hMode]
    exact Bool.false_ne_true
  have hNumbers :
      (∀ f : NumberFlag, f.Passes (opts.number f)) ↔
        ¬ opts.resourceCount ≤ 0 ∧
        ¬ (opts.memReq = 0 ∨ opts.coreReq = 0) ∧
        ¬ (opts.memReq < -1 ∨ opts.coreReq < -1) ∧
        ¬ (opts.pid = 0 ∨ opts.pid < -1) ∧
        ¬ (opts.xsched.xschedUtilization < -1 ∨
          100 < opts.xsched.xschedUtilization) := by
    constructor
    · intro h
      have hCount := h .count
      have hMem := h .mem
      have hCores := h .cores
      have hPid := h .pid
      have hUtilization := h .utilization
      simp only [NumberFlag.Passes, ParsedOptions.number]
        at hCount hMem hCores hPid hUtilization
      omega
    · intro h f
      cases f <;>
        simp only [NumberFlag.Passes, ParsedOptions.number] <;>
        omega
  rw [checkOptions, if_neg hNot, hNumbers]
  simp only [ite_error_eq_ok_iff, Except.ok.injEq, ne_eq,
    and_assoc]
  simp only [ParsedOptions.withEnabled, eq_comm]

end Drex

------------------------------------------------------------
-- The Flag Form
------------------------------------------------------------

namespace Drex

/- The options after the loop. -/
def assigned
    (read : Str → Option Int)
    (pid : ProcessId)
    (given : List Argument) :
    ParsedOptions :=
  overridden read given (flagDefaults pid defaultOptions)

theorem text_flagDefaults
    (pid : ProcessId)
    (f : TextFlag) :
    (flagDefaults pid defaultOptions).text f = f.start := by
  cases f <;> rfl

theorem present_iff
    (read : Str → Option Int)
    (pid : ProcessId)
    (given : List Argument)
    (f : TextFlag) :
    Present given f ↔
      (assigned read pid given).text f ≠ [] := by
  rw [assigned, text_overridden, text_flagDefaults, Present]

/- The defaults pass the checks they meet. -/
theorem passes_flagDefaults
    (pid : ProcessId)
    (f : NumberFlag) :
    f.Passes ((flagDefaults pid defaultOptions).number f) := by
  have hPid := pid.positive
  cases f with
  | pid => exact Or.inr hPid
  | count => exact Int.one_pos
  | mem => exact Or.inl rfl
  | cores => exact Or.inl rfl
  | utilization =>
      exact ⟨le_refl _, (by omega : (-1 : Int) ≤ 100)⟩

theorem passes_number_iff
    (pid : ProcessId)
    (given : List Argument) :
    (∀ f : NumberFlag,
        f.Passes ((assigned stoi? pid given).number f)) ↔
      ∀ (f : NumberFlag) n,
        lastNumber stoi? f given = some n → f.Passes n := by
  have hNumber :
      ∀ f : NumberFlag,
        (assigned stoi? pid given).number f =
          (lastNumber stoi? f given).getD
            ((flagDefaults pid defaultOptions).number f) :=
    number_overridden stoi? given _
  constructor
  · intro h f n hLast
    have hPasses := h f
    rw [hNumber, hLast] at hPasses
    exact hPasses
  · intro h f
    rw [hNumber]
    cases hLast : lastNumber stoi? f given with
    | none => exact passes_flagDefaults pid f
    | some n => exact h f n hLast

/- The hint is in range only where it is given. -/
theorem utilization_in_range_iff
    (pid : ProcessId)
    (given : List Argument) :
    (0 ≤ (assigned stoi? pid given).number .utilization ∧
        (assigned stoi? pid given).number .utilization ≤
          100) ↔
      ∃ n, lastNumber stoi? .utilization given = some n ∧
        0 ≤ n ∧ n ≤ 100 := by
  have hNumber :
      (assigned stoi? pid given).number .utilization =
        (lastNumber stoi? .utilization given).getD (-1) :=
    number_overridden stoi? given _ .utilization
  rw [hNumber]
  cases lastNumber stoi? .utilization given with
  | none => simp
  | some n => simp

/- Whether the hint is switched on for the options. -/
def hintOn (opts : ParsedOptions) : Bool :=
  opts.updateUtilization ||
    decide (0 ≤ opts.xsched.xschedUtilization)

/- The checks of either mode are those of `Accepted`. -/
theorem checkOptions_assigned_iff
    {pid : ProcessId}
    {given : List Argument}
    {opts : ParsedOptions}
    (hRead : Readable given) :
    checkOptions (assigned stoi? pid given) = .ok opts ↔
      Accepted given ∧
        opts =
          (assigned stoi? pid given).withEnabled
            (hintOn (assigned stoi? pid given)) := by
  have hPresent := present_iff stoi? pid given
  have hMode :
      (assigned stoi? pid given).updateUtilization =
        decide (Argument.updateUtilization ∈ given) :=
    Bool.or_false _
  by_cases hUpdate : Argument.updateUtilization ∈ given
  · rw [decide_eq_true hUpdate] at hMode
    have hOn : hintOn (assigned stoi? pid given) = true := by
      rw [hintOn, hMode]
      rfl
    rw [checkOptions_update_iff hMode, hOn,
      and_congr_left_iff]
    intro _
    have hRange := utilization_in_range_iff pid given
    constructor
    · rintro ⟨hController, hWorkspace, hTask, hUtilization⟩
      refine ⟨hRead, ?_, fun _ => hRange.mp hUtilization,
        fun hNot => absurd hUpdate hNot⟩
      intro f hF
      rw [requiredTexts, if_pos hUpdate] at hF
      rw [hPresent]
      simp only [List.mem_cons, List.not_mem_nil,
        or_false] at hF
      rcases hF with rfl | rfl | rfl
      · exact hController
      · exact hWorkspace
      · exact hTask
    · intro h
      have hRequired := h.required
      rw [requiredTexts, if_pos hUpdate] at hRequired
      simp only [List.forall_mem_cons, hPresent] at hRequired
      exact
        ⟨hRequired.1, hRequired.2.1, hRequired.2.2.1,
          hRange.mpr (h.update hUpdate)⟩
  · rw [decide_eq_false hUpdate] at hMode
    have hOn :
        hintOn (assigned stoi? pid given) =
          decide (0 ≤
            (assigned stoi? pid
              given).xsched.xschedUtilization) := by
      rw [hintOn, hMode]
      rfl
    rw [checkOptions_submission_iff hMode, hOn,
      and_congr_left_iff]
    intro _
    have hNumbers := passes_number_iff pid given
    constructor
    · rintro ⟨hCommand, hOutput, hType, hPasses⟩
      refine ⟨hRead, ?_, fun h => absurd h hUpdate,
        fun _ => hNumbers.mp hPasses⟩
      intro f hF
      rw [requiredTexts, if_neg hUpdate] at hF
      rw [hPresent]
      simp only [List.mem_cons, List.not_mem_nil,
        or_false] at hF
      rcases hF with rfl | rfl | rfl
      · exact hCommand
      · exact hOutput
      · exact hType
    · intro h
      have hRequired := h.required
      rw [requiredTexts, if_neg hUpdate] at hRequired
      simp only [List.forall_mem_cons, hPresent] at hRequired
      exact
        ⟨hRequired.1, hRequired.2.1, hRequired.2.2.1,
          hNumbers.mpr (h.submission hUpdate)⟩

/- The options that accepted arguments give. -/
def givenOptions
    (pid : ProcessId)
    (given : List Argument) :
    ParsedOptions :=
  (assigned stoi? pid given).withEnabled
    (hintOn (assigned stoi? pid given))

/- The flag form, on documented arguments. -/
theorem parseArguments_spelled
    (pid : ProcessId)
    (progName : Str)
    {first : Str}
    {rest : List Str}
    {given : List Argument}
    {opts : ParsedOptions}
    (hArgs :
      ("--".toList ++ first) :: rest =
        given.map Argument.spelled) :
    parseArguments pid progName
        (("--".toList ++ first) :: rest) defaultOptions =
          .ok opts ↔
      Accepted given ∧ opts = givenOptions pid given := by
  have hForm :
      "--".toList.isPrefixOf ("--".toList ++ first) = true :=
    List.isPrefixOf_iff_prefix.mpr (List.prefix_append _ _)
  rw [parseArguments, if_pos hForm, hArgs]
  cases hParsed :
      parseFlags progName (given.map Argument.spelled)
        (flagDefaults pid defaultOptions) with
  | error error =>
      have hNot : ¬ Accepted given := by
        intro hAccepted
        have hOk :=
          (parseFlags_spelled progName given
            (flagDefaults pid defaultOptions) _).mpr
            ⟨hAccepted.readable, rfl⟩
        rw [hParsed] at hOk
        cases hOk
      simp [hNot]
  | ok mid =>
      rcases (parseFlags_spelled progName given _ _).mp
        hParsed with ⟨hRead, rfl⟩
      exact checkOptions_assigned_iff hRead

/- The flag form takes the accepted arguments. -/
theorem parseArguments_flags
    {pid : ProcessId}
    {progName first : Str}
    {rest : List Str}
    {opts : ParsedOptions} :
    parseArguments pid progName
        (("--".toList ++ first) :: rest) defaultOptions =
          .ok opts ↔
      ∃ given : List Argument,
        ("--".toList ++ first) :: rest =
          given.map Argument.spelled ∧
        Accepted given ∧ opts = givenOptions pid given := by
  constructor
  · intro h
    have hForm :
        "--".toList.isPrefixOf ("--".toList ++ first) = true :=
      List.isPrefixOf_iff_prefix.mpr (List.prefix_append _ _)
    have hParse := h
    rw [parseArguments, if_pos hForm] at hParse
    cases hParsed :
        parseFlags progName (("--".toList ++ first) :: rest)
          (flagDefaults pid defaultOptions) with
    | error error =>
        rw [hParsed] at hParse
        cases hParse
    | ok mid =>
        rcases spelled_of_parseFlags hParsed with
          ⟨given, hArgs⟩
        refine ⟨given, hArgs, ?_⟩
        exact
          (parseArguments_spelled pid progName hArgs).mp h
  · rintro ⟨given, hArgs, hAccepted⟩
    exact
      (parseArguments_spelled pid progName hArgs).mpr
        hAccepted

end Drex

------------------------------------------------------------
-- The Documented Language
------------------------------------------------------------

namespace Drex

/- The values a number may have where it is given. -/
def NumberFlag.InBounds : NumberFlag → Int → Prop
| .utilization, n => 0 ≤ n ∧ n ≤ 100
| _, n => 0 < n ∧ n ≤ 2 ^ 31 - 1

/- Every number given is a decimal integer in its bounds. -/
def Strict (given : List Argument) : Prop :=
  ∀ f value, Argument.number f value ∈ given →
    ∃ n, decimalInteger? value = some n ∧ f.InBounds n

/- A submission has the texts of a list. -/
def SubmissionHas
    (also : List TextFlag)
    (given : List Argument) :
    Prop :=
  .updateUtilization ∉ given → ∀ f ∈ also, Present given f

/-
  The arguments that the documented flag form takes. `also`
  are the texts that a submission is held to beside those
  the checks require.
-/
structure Valid
    (also : List TextFlag)
    (given : List Argument) :
    Prop where
  numbers : Strict given
  required : ∀ f ∈ requiredTexts given, Present given f
  further : SubmissionHas also given
  utilization :
    .updateUtilization ∈ given →
      ∃ value, Argument.number .utilization value ∈ given

/- The defaults, overridden by the last value of each flag. -/
def optionsOf
    (pid : ProcessId)
    (given : List Argument) :
    ParsedOptions :=
  (assigned decimalInteger? pid given).withEnabled
    (lastOf (Argument.numberFor .utilization) given).isSome

theorem NumberFlag.InBounds.range
    {f : NumberFlag}
    {n : Int}
    (h : f.InBounds n) :
    IntRange n := by
  cases f <;>
    simp only [NumberFlag.InBounds] at h <;>
    constructor <;>
    omega

theorem NumberFlag.InBounds.passes
    {f : NumberFlag}
    {n : Int}
    (h : f.InBounds n) :
    f.Passes n := by
  cases f <;>
    simp only [NumberFlag.InBounds, NumberFlag.Passes]
      at h ⊢ <;>
    omega

theorem numberFor_eq_some_iff
    {f : NumberFlag}
    {a : Argument}
    {value : Str} :
    a.numberFor f = some value ↔ a = .number f value := by
  cases a with
  | pty => simp [Argument.numberFor]
  | updateUtilization => simp [Argument.numberFor]
  | text g value => simp [Argument.numberFor]
  | number g value =>
      by_cases hSame : g = f
      · simp [Argument.numberFor, hSame]
      · simp [Argument.numberFor, hSame]

theorem readFor_eq_some_iff
    {read : Str → Option Int}
    {f : NumberFlag}
    {a : Argument}
    {n : Int} :
    a.readFor read f = some n ↔
      ∃ value, a = .number f value ∧ read value = some n := by
  simp only [Argument.readFor, Option.bind_eq_some_iff,
    numberFor_eq_some_iff]

/- Both readers find the same strict numbers. -/
theorem lastNumber_of_strict
    {given : List Argument}
    (h : Strict given)
    (f : NumberFlag) :
    lastNumber stoi? f given =
      lastNumber decimalInteger? f given := by
  have hSame :
      given.filterMap (Argument.readFor stoi? f) =
        given.filterMap
          (Argument.readFor decimalInteger? f) := by
    apply List.filterMap_congr
    intro a hA
    cases hFor : a.numberFor f with
    | none => simp [Argument.readFor, hFor]
    | some value =>
        rw [numberFor_eq_some_iff] at hFor
        rcases h f value (hFor ▸ hA) with
          ⟨n, hDecimal, hBounds⟩
        have hStoi : stoi? value = some n :=
          stoi?_eq_some_iff.mpr
            (stoi_of_decimalInteger hDecimal hBounds.range)
        simp [Argument.readFor, hFor, Argument.numberFor,
          hStoi, hDecimal]
  rw [lastNumber, lastNumber, lastOf, lastOf, hSame]

/- A strict number that is read last is in its bounds. -/
theorem inBounds_of_lastNumber
    {given : List Argument}
    (h : Strict given)
    {f : NumberFlag}
    {n : Int}
    (hLast : lastNumber stoi? f given = some n) :
    f.InBounds n := by
  rw [lastNumber_of_strict h] at hLast
  rcases mem_of_lastOf hLast with ⟨a, hA, hRead⟩
  rcases readFor_eq_some_iff.mp hRead with
    ⟨value, rfl, hValue⟩
  rcases h f value hA with ⟨m, hDecimal, hBounds⟩
  rw [hDecimal] at hValue
  cases hValue
  exact hBounds

/- A strict number is read where it is given. -/
theorem lastNumber_isSome_iff
    {given : List Argument}
    (h : Strict given)
    (f : NumberFlag) :
    (lastNumber stoi? f given).isSome = true ↔
      ∃ value, Argument.number f value ∈ given := by
  rw [lastNumber_of_strict h, lastNumber, lastOf_isSome_iff]
  constructor
  · rintro ⟨a, hA, hSome⟩
    rcases Option.isSome_iff_exists.mp hSome with ⟨n, hRead⟩
    rcases readFor_eq_some_iff.mp hRead with ⟨value, rfl, _⟩
    exact ⟨value, hA⟩
  · rintro ⟨value, hMem⟩
    rcases h f value hMem with ⟨n, hDecimal, _⟩
    have hRead :
        (Argument.number f value).readFor decimalInteger? f =
          some n :=
      readFor_eq_some_iff.mpr ⟨value, rfl, hDecimal⟩
    exact ⟨_, hMem, by rw [hRead]; rfl⟩

theorem numberFor_isSome_iff
    {given : List Argument}
    (f : NumberFlag) :
    (lastOf (Argument.numberFor f) given).isSome = true ↔
      ∃ value, Argument.number f value ∈ given := by
  rw [lastOf_isSome_iff]
  constructor
  · rintro ⟨a, hA, hSome⟩
    rcases Option.isSome_iff_exists.mp hSome with
      ⟨value, hFor⟩
    rw [numberFor_eq_some_iff] at hFor
    exact ⟨value, hFor ▸ hA⟩
  · rintro ⟨value, hMem⟩
    exact
      ⟨_, hMem, by
        rw [numberFor_eq_some_iff.mpr rfl]
        rfl⟩

/- The documented arguments are those taken, where strict. -/
theorem valid_iff
    {also : List TextFlag}
    {given : List Argument} :
    Valid also given ↔
      Accepted given ∧ Strict given ∧
        SubmissionHas also given := by
  constructor
  · intro h
    refine
      ⟨⟨?_, h.required, ?_, ?_⟩, h.numbers, h.further⟩
    · intro f value hMem
      rcases h.numbers f value hMem with
        ⟨n, hDecimal, hBounds⟩
      exact
        ⟨n, stoi_of_decimalInteger hDecimal hBounds.range⟩
    · intro hUpdate
      have hSome :=
        (lastNumber_isSome_iff h.numbers .utilization).mpr
          (h.utilization hUpdate)
      rcases Option.isSome_iff_exists.mp hSome with
        ⟨n, hLast⟩
      exact ⟨n, hLast, inBounds_of_lastNumber h.numbers hLast⟩
    · intro _ f n hLast
      exact (inBounds_of_lastNumber h.numbers hLast).passes
  · rintro ⟨hAccepted, hStrict, hAlso⟩
    refine ⟨hStrict, hAccepted.required, hAlso, ?_⟩
    intro hUpdate
    rcases hAccepted.update hUpdate with ⟨n, hLast, _⟩
    apply (lastNumber_isSome_iff hStrict .utilization).mp
    rw [hLast]
    rfl

/- Strict arguments give the documented options. -/
theorem givenOptions_of_strict
    (pid : ProcessId)
    {given : List Argument}
    (hAccepted : Accepted given)
    (hStrict : Strict given) :
    givenOptions pid given = optionsOf pid given := by
  have hAssigned :
      assigned stoi? pid given =
        assigned decimalInteger? pid given := by
    simp only [assigned, overridden,
      lastNumber_of_strict hStrict]
  have hGiven :
      (lastOf (Argument.numberFor .utilization) given).isSome =
        (lastNumber stoi? .utilization given).isSome := by
    rw [Bool.eq_iff_iff, numberFor_isSome_iff,
      lastNumber_isSome_iff hStrict]
  have hOn :
      hintOn (assigned stoi? pid given) =
        (lastNumber stoi? .utilization given).isSome := by
    have hMode :
        (assigned stoi? pid given).updateUtilization =
          decide (Argument.updateUtilization ∈ given) :=
      Bool.or_false _
    have hNumber :
        (assigned stoi? pid given).xsched.xschedUtilization =
          (lastNumber stoi? .utilization given).getD (-1) :=
      rfl
    rw [hintOn, hMode, hNumber]
    cases hLast : lastNumber stoi? .utilization given with
    | none =>
        have hNot : Argument.updateUtilization ∉ given := by
          intro hUpdate
          rcases hAccepted.update hUpdate with ⟨n, hSome, _⟩
          rw [hLast] at hSome
          cases hSome
        simp [hNot]
    | some n =>
        have hBounds := inBounds_of_lastNumber hStrict hLast
        simp [hBounds.1]
  rw [givenOptions, optionsOf, hOn, hGiven, hAssigned]

/-
  `ParseArguments` takes the documented flag form and gives
  its options exactly where what it takes is strict.
-/
theorem parseArguments_documented_iff
    (pid : ProcessId)
    (progName first : Str)
    (rest : List Str)
    (also : List TextFlag) :
    (∀ opts,
      parseArguments pid progName
          (("--".toList ++ first) :: rest) defaultOptions =
            .ok opts ↔
        ∃ given : List Argument,
          ("--".toList ++ first) :: rest =
            given.map Argument.spelled ∧
          Valid also given ∧ opts = optionsOf pid given) ↔
      ∀ given : List Argument,
        ("--".toList ++ first) :: rest =
          given.map Argument.spelled →
        Accepted given →
          Strict given ∧ SubmissionHas also given := by
  constructor
  · intro h given hArgs hAccepted
    have hParse :=
      (parseArguments_spelled pid progName hArgs).mpr
        ⟨hAccepted, rfl⟩
    rcases (h _).mp hParse with ⟨given', hArgs', hValid, _⟩
    have hSame : given = given' :=
      List.map_injective_iff.mpr spelled_injective
        (hArgs.symm.trans hArgs')
    rw [hSame]
    exact (valid_iff.mp hValid).2
  · intro h opts
    rw [parseArguments_flags]
    apply exists_congr
    intro given
    rw [and_congr_right_iff]
    intro hArgs
    constructor
    · rintro ⟨hAccepted, rfl⟩
      have hRest := h given hArgs hAccepted
      exact
        ⟨valid_iff.mpr ⟨hAccepted, hRest⟩,
          givenOptions_of_strict pid hAccepted hRest.1⟩
    · rintro ⟨hValid, rfl⟩
      rcases valid_iff.mp hValid with
        ⟨hAccepted, hStrict, _⟩
      exact
        ⟨hAccepted,
          (givenOptions_of_strict pid hAccepted hStrict).symm⟩

/- A count with text behind it is taken. -/
theorem parseArguments_takes_trailing_text :
    ¬ ∀ opts,
      parseArguments ⟨1, by decide, by decide⟩
          "integrated_client".toList
          (("--".toList ++ "command=run".toList) ::
            ["--type=cpu".toList, "--count=5x".toList])
          defaultOptions = .ok opts ↔
        ∃ given : List Argument,
          ("--".toList ++ "command=run".toList) ::
              ["--type=cpu".toList, "--count=5x".toList] =
            given.map Argument.spelled ∧
          Valid [] given ∧
          opts =
            optionsOf ⟨1, by decide, by decide⟩ given := by
  intro h
  have hTaken :
      (parseArguments ⟨1, by decide, by decide⟩
          "integrated_client".toList
          (("--".toList ++ "command=run".toList) ::
            ["--type=cpu".toList, "--count=5x".toList])
          defaultOptions).isOk = true := by
    decide +kernel
  cases hParse :
      parseArguments ⟨1, by decide, by decide⟩
        "integrated_client".toList
        (("--".toList ++ "command=run".toList) ::
          ["--type=cpu".toList, "--count=5x".toList])
        defaultOptions with
  | error error =>
      rw [hParse] at hTaken
      cases hTaken
  | ok opts =>
      rcases (h opts).mp hParse with ⟨given, hArgs, hValid, _⟩
      have hGiven :
          given =
            [.text .command "run".toList,
              .text .type "cpu".toList,
              .number .count "5x".toList] :=
        List.map_injective_iff.mpr spelled_injective
          hArgs.symm
      rw [hGiven] at hValid
      rcases hValid.numbers .count "5x".toList (by simp) with
        ⟨n, hDecimal, _⟩
      have hNone : decimalInteger? "5x".toList = none := by
        decide +kernel
      rw [hNone] at hDecimal
      cases hDecimal

end Drex

------------------------------------------------------------
-- The Two Forms
------------------------------------------------------------

namespace Drex

/- The values of the positional form. -/
structure PositionalValues where
  controllerAddr : Str
  srcDir : Str
  workspaceSubdir : Str
  command : Str
  localOutputDir : Str
  resourceType : Str
  resourceCount : Str

/- The flags the usage text allows after them. -/
inductive OptionalFlag
| mem (value : Str)
| cores (value : Str)
| pid (value : Str)
| pty
| utilization (value : Str)
deriving DecidableEq

def OptionalFlag.argument : OptionalFlag → Argument
| .mem value => .number .mem value
| .cores value => .number .cores value
| .pid value => .number .pid value
| .pty => .pty
| .utilization value => .number .utilization value

/- The values as they stand in the positional form. -/
def PositionalValues.positional
    (v : PositionalValues) :
    List Str :=
  [v.controllerAddr, v.srcDir, v.workspaceSubdir, v.command,
    v.localOutputDir, v.resourceType, v.resourceCount]

/- The same values as flags. -/
def PositionalValues.flags
    (v : PositionalValues) :
    List Argument :=
  [.text .controller v.controllerAddr,
    .text .srcDir v.srcDir,
    .text .workspaceSubdir v.workspaceSubdir,
    .text .command v.command,
    .text .localOutputDir v.localOutputDir,
    .text .type v.resourceType,
    .number .count v.resourceCount]

/- Both fail, or both succeed with the same options. -/
def Agree : Except Str ParsedOptions →
    Except Str ParsedOptions → Prop
| .ok a, .ok b => a = b
| .error _, .error _ => True
| _, _ => False

instance : ∀ a b, Decidable (Agree a b)
| .ok a, .ok b => inferInstanceAs (Decidable (a = b))
| .error _, .error _ => .isTrue trivial
| .ok _, .error _ => .isFalse id
| .error _, .ok _ => .isFalse id

/- The values that the positional form takes. -/
structure PositionalValues.Accepted
    (v : PositionalValues) :
    Prop where
  command : v.command ≠ []
  localOutputDir : v.localOutputDir ≠ []
  resourceType : v.resourceType ≠ []
  resourceCount : ∃ n, stoi v.resourceCount = .ok n ∧ 0 < n

/- The options that the values give on their own. -/
def PositionalValues.options
    (v : PositionalValues) :
    ParsedOptions :=
  { defaultOptions with
    controllerAddr := v.controllerAddr
    srcDir := v.srcDir
    workspaceSubdir := v.workspaceSubdir
    command := v.command
    localOutputDir := v.localOutputDir
    resourceType := v.resourceType
    resourceCount := (stoi? v.resourceCount).getD 0 }

/-
  Flags that leave what the positional form has without
  them: a pid of -1 has to be asked for.
-/
structure Ineffective (given : List Argument) : Prop where
  readable : Readable given
  pty : .pty ∉ given
  numbers :
    ∀ f ∈ [NumberFlag.mem, .cores, .utilization],
      (lastNumber stoi? f given).getD (-1) = -1
  pid : lastNumber stoi? .pid given = some (-1)

theorem passes_options_iff
    {v : PositionalValues}
    {n : Int}
    (hRead : stoi? v.resourceCount = some n) :
    (∀ f : NumberFlag, f.Passes (v.options.number f)) ↔
      0 < n := by
  have hCount : v.options.number .count = n := by
    simp only [ParsedOptions.number, PositionalValues.options,
      hRead, Option.getD_some]
  constructor
  · intro h
    have hPositive := h .count
    rw [hCount] at hPositive
    exact hPositive
  · intro h f
    cases f with
    | count =>
        rw [hCount]
        exact h
    | mem => exact Or.inl rfl
    | cores => exact Or.inl rfl
    | pid => exact Or.inl rfl
    | utilization =>
        exact ⟨le_refl _, (by omega : (-1 : Int) ≤ 100)⟩

/- The positional form does not read the flags. -/
theorem parseArguments_positional
    {pid : ProcessId}
    {progName : Str}
    {v : PositionalValues}
    {rest : List Str}
    {opts : ParsedOptions}
    (hForm : "--".toList.isPrefixOf v.controllerAddr = false) :
    parseArguments pid progName (v.positional ++ rest)
        defaultOptions = .ok opts ↔
      v.Accepted ∧ opts = v.options := by
  have hNot :
      ¬ "--".toList.isPrefixOf v.controllerAddr = true := by
    rw [hForm]
    exact Bool.false_ne_true
  have hSplit :
      v.positional ++ rest =
        v.controllerAddr :: v.srcDir :: v.workspaceSubdir ::
          v.command :: v.localOutputDir :: v.resourceType ::
          v.resourceCount :: rest := rfl
  rw [hSplit, parseArguments, if_neg hNot]
  simp only [parsePositional]
  cases hCount : stoi v.resourceCount with
  | error what =>
      have hRefused : ¬ v.Accepted := by
        intro hAccepted
        rcases hAccepted.resourceCount with ⟨n, hN, _⟩
        rw [hCount] at hN
        cases hN
      simp [hRefused]
  | ok n =>
      have hRead : stoi? v.resourceCount = some n :=
        stoi?_eq_some_iff.mpr hCount
      have hAccepted :
          v.Accepted ↔
            v.command ≠ [] ∧ v.localOutputDir ≠ [] ∧
              v.resourceType ≠ [] ∧ 0 < n := by
        constructor
        · intro h
          rcases h.resourceCount with ⟨m, hM, hPositive⟩
          rw [hCount] at hM
          cases hM
          exact
            ⟨h.command, h.localOutputDir, h.resourceType,
              hPositive⟩
        · rintro ⟨hCommand, hOutput, hType, hPositive⟩
          exact
            ⟨hCommand, hOutput, hType, n, hCount, hPositive⟩
      have hOptions :
          ({ defaultOptions with
              controllerAddr := v.controllerAddr
              srcDir := v.srcDir
              workspaceSubdir := v.workspaceSubdir
              command := v.command
              localOutputDir := v.localOutputDir
              resourceType := v.resourceType
              resourceCount := n } : ParsedOptions) =
            v.options := by
        rw [PositionalValues.options, hRead]
        rfl
      dsimp only
      rw [hOptions, checkOptions_submission_iff rfl,
        passes_options_iff hRead, hAccepted]
      rfl

/- What is said last is said in the end of the list. -/
theorem lastOf_append
    {T : Type}
    (pick : Argument → Option T)
    (before after : List Argument) :
    lastOf pick (before ++ after) =
      (lastOf pick after).or (lastOf pick before) := by
  rw [lastOf, List.filterMap_append, List.getLast?_append]
  rfl

/- The optional flags carry no text and no count. -/
theorem lastText_optional
    (optional : List OptionalFlag)
    (f : TextFlag) :
    lastText f (optional.map OptionalFlag.argument) =
      none := by
  cases hLast :
      lastText f (optional.map OptionalFlag.argument) with
  | none => rfl
  | some value =>
      rcases mem_of_lastOf hLast with ⟨a, hA, hPick⟩
      rcases List.mem_map.mp hA with ⟨o, _, rfl⟩
      cases o <;> cases hPick

theorem lastNumber_optional_count
    (optional : List OptionalFlag) :
    lastNumber stoi? .count
        (optional.map OptionalFlag.argument) =
      none := by
  cases hLast :
      lastNumber stoi? .count
        (optional.map OptionalFlag.argument) with
  | none => rfl
  | some value =>
      rcases mem_of_lastOf hLast with ⟨a, hA, hPick⟩
      rcases List.mem_map.mp hA with ⟨o, _, rfl⟩
      cases o <;> cases hPick

/- The arguments of the flag form for the same values. -/
def PositionalValues.given
    (v : PositionalValues)
    (optional : List OptionalFlag) :
    List Argument :=
  v.flags ++ optional.map OptionalFlag.argument

theorem lastText_given
    (v : PositionalValues)
    (optional : List OptionalFlag)
    (f : TextFlag) :
    (lastText f (v.given optional)).getD f.start =
      v.options.text f := by
  have hOptional := lastText_optional optional f
  rw [lastText] at hOptional
  rw [lastText, PositionalValues.given, lastOf_append,
    hOptional]
  cases f <;> rfl

theorem lastNumber_given_count
    (v : PositionalValues)
    (optional : List OptionalFlag) :
    lastNumber stoi? .count (v.given optional) =
      stoi? v.resourceCount := by
  have hOptional := lastNumber_optional_count optional
  rw [lastNumber] at hOptional
  rw [lastNumber, PositionalValues.given, lastOf_append,
    hOptional, Option.none_or]
  cases hCount : stoi? v.resourceCount with
  | none =>
      simp [lastOf, PositionalValues.flags, Argument.readFor,
        Argument.numberFor, hCount]
  | some n =>
      simp [lastOf, PositionalValues.flags, Argument.readFor,
        Argument.numberFor, hCount]

theorem lastNumber_given
    (v : PositionalValues)
    (optional : List OptionalFlag)
    {f : NumberFlag}
    (hF : f ≠ .count) :
    lastNumber stoi? f (v.given optional) =
      lastNumber stoi? f
        (optional.map OptionalFlag.argument) := by
  have hFlags : lastOf (Argument.readFor stoi? f) v.flags =
      none := by
    simp [lastOf, PositionalValues.flags, Argument.readFor,
      Argument.numberFor, hF.symm]
  rw [lastNumber, PositionalValues.given, lastOf_append,
    hFlags, Option.or_none, lastNumber]

/- The flags of the values hold one number, the count. -/
theorem readable_given_iff
    (v : PositionalValues)
    (optional : List OptionalFlag) :
    Readable (v.given optional) ↔
      (∃ n, stoi v.resourceCount = .ok n) ∧
        Readable (optional.map OptionalFlag.argument) := by
  have hMem :
      ∀ f value,
        Argument.number f value ∈ v.given optional ↔
          (f = .count ∧ value = v.resourceCount) ∨
            Argument.number f value ∈
              optional.map OptionalFlag.argument := by
    intro f value
    simp [PositionalValues.given, PositionalValues.flags]
  constructor
  · intro h
    exact
      ⟨h .count _ ((hMem _ _).mpr (Or.inl ⟨rfl, rfl⟩)),
        fun f value hValue =>
          h f value ((hMem _ _).mpr (Or.inr hValue))⟩
  · rintro ⟨hCount, hRest⟩ f value hValue
    rcases (hMem _ _).mp hValue with ⟨_, rfl⟩ | hOptional
    · exact hCount
    · exact hRest f value hOptional

theorem not_update_given
    (v : PositionalValues)
    (optional : List OptionalFlag) :
    Argument.updateUtilization ∉ v.given optional := by
  intro hMem
  rcases List.mem_append.mp hMem with hFlags | hOptional
  · simp [PositionalValues.flags] at hFlags
  · rcases List.mem_map.mp hOptional with ⟨o, _, hO⟩
    cases o <;> cases hO

theorem pty_given_iff
    (v : PositionalValues)
    (optional : List OptionalFlag) :
    Argument.pty ∈ v.given optional ↔
      Argument.pty ∈ optional.map OptionalFlag.argument := by
  simp [PositionalValues.given, PositionalValues.flags]

/- What the flag form takes beside the optional flags. -/
theorem accepted_given_iff
    (v : PositionalValues)
    (optional : List OptionalFlag) :
    Accepted (v.given optional) ↔
      v.Accepted ∧
        Readable (optional.map OptionalFlag.argument) ∧
        ∀ f ≠ NumberFlag.count, ∀ n,
          lastNumber stoi? f
              (optional.map OptionalFlag.argument) = some n →
            f.Passes n := by
  have hUpdate := not_update_given v optional
  have hRequired :
      (∀ f ∈ requiredTexts (v.given optional),
          Present (v.given optional) f) ↔
        v.command ≠ [] ∧ v.localOutputDir ≠ [] ∧
          v.resourceType ≠ [] := by
    rw [requiredTexts, if_neg hUpdate]
    simp only [List.forall_mem_cons, Present, lastText_given,
      List.not_mem_nil, false_imp_iff, implies_true, and_true]
    rfl
  constructor
  · intro h
    have hRead := (readable_given_iff v optional).mp h.readable
    have hTexts := hRequired.mp h.required
    have hNumbers := h.submission hUpdate
    refine ⟨⟨hTexts.1, hTexts.2.1, hTexts.2.2, ?_⟩,
      hRead.2, ?_⟩
    · rcases hRead.1 with ⟨n, hCount⟩
      refine ⟨n, hCount, hNumbers .count n ?_⟩
      rw [lastNumber_given_count]
      exact stoi?_eq_some_iff.mpr hCount
    · intro f hF n hLast
      apply hNumbers f n
      rw [lastNumber_given v optional hF]
      exact hLast
  · rintro ⟨hValues, hRead, hNumbers⟩
    rcases hValues.resourceCount with ⟨n, hCount, hPositive⟩
    refine
      ⟨(readable_given_iff v optional).mpr
          ⟨⟨n, hCount⟩, hRead⟩,
        hRequired.mpr
          ⟨hValues.command, hValues.localOutputDir,
            hValues.resourceType⟩,
        fun h => absurd h hUpdate, ?_⟩
    intro _ f m hLast
    by_cases hF : f = .count
    · subst hF
      rw [lastNumber_given_count,
        stoi?_eq_some_iff.mpr hCount] at hLast
      cases hLast
      exact hPositive
    · rw [lastNumber_given v optional hF] at hLast
      exact hNumbers f hF m hLast

end Drex

------------------------------------------------------------
-- Agreement
------------------------------------------------------------

namespace Drex

theorem number_givenOptions
    (pid : ProcessId)
    (given : List Argument)
    (f : NumberFlag) :
    (givenOptions pid given).number f =
      (lastNumber stoi? f given).getD
        ((flagDefaults pid defaultOptions).number f) := by
  cases f <;> rfl

theorem text_givenOptions
    (pid : ProcessId)
    (given : List Argument)
    (f : TextFlag) :
    (givenOptions pid given).text f =
      (lastText f given).getD f.start := by
  cases f <;> rfl

/- Ineffective flags pass the checks of a submission. -/
theorem Ineffective.passes
    {given : List Argument}
    (h : Ineffective given)
    {f : NumberFlag}
    (hF : f ≠ .count)
    {n : Int}
    (hLast : lastNumber stoi? f given = some n) :
    f.Passes n := by
  have hNone :
      ∀ g ∈ [NumberFlag.mem, .cores, .utilization],
        lastNumber stoi? g given = some n → n = -1 := by
    intro g hG hSome
    have hGiven := h.numbers g hG
    rw [hSome] at hGiven
    exact hGiven
  cases f with
  | count => exact absurd rfl hF
  | mem => exact Or.inl (hNone .mem (by decide) hLast)
  | cores => exact Or.inl (hNone .cores (by decide) hLast)
  | pid =>
      rw [h.pid] at hLast
      exact Or.inl (Option.some.inj hLast).symm
  | utilization =>
      have hSame := hNone .utilization (by decide) hLast
      simp only [NumberFlag.Passes]
      omega

/- The flags give what the values give on their own. -/
theorem givenOptions_given_iff
    {pid : ProcessId}
    {v : PositionalValues}
    {optional : List OptionalFlag}
    (hAccepted : Accepted (v.given optional)) :
    givenOptions pid (v.given optional) = v.options ↔
      Ineffective (optional.map OptionalFlag.argument) := by
  have hOther :
      ∀ f ≠ NumberFlag.count,
        (givenOptions pid (v.given optional)).number f =
          (lastNumber stoi? f
              (optional.map OptionalFlag.argument)).getD
            ((flagDefaults pid defaultOptions).number f) := by
    intro f hF
    rw [number_givenOptions, lastNumber_given v optional hF]
  have hPty :
      (givenOptions pid (v.given optional)).pty =
        decide (Argument.pty ∈
          optional.map OptionalFlag.argument) := by
    have hGiven :
        (givenOptions pid (v.given optional)).pty =
          decide (Argument.pty ∈ v.given optional) :=
      Bool.or_false _
    rw [hGiven]
    exact decide_eq_decide.mpr (pty_given_iff v optional)
  rcases (accepted_given_iff v optional).mp hAccepted with
    ⟨hValues, hRead, _⟩
  constructor
  · intro hSame
    rw [hSame] at hOther hPty
    refine ⟨hRead, ?_, ?_, ?_⟩
    · exact of_decide_eq_false hPty.symm
    · intro f hF
      simp only [List.mem_cons, List.not_mem_nil,
        or_false] at hF
      rcases hF with rfl | rfl | rfl
      · exact (hOther .mem (by decide)).symm
      · exact (hOther .cores (by decide)).symm
      · exact (hOther .utilization (by decide)).symm
    · have hPid := hOther .pid (by decide)
      have hPositive := pid.positive
      cases hLast :
          lastNumber stoi? .pid
            (optional.map OptionalFlag.argument) with
      | none =>
          rw [hLast] at hPid
          have hStart : (-1 : Int) = pid.value := hPid
          omega
      | some n =>
          rw [hLast] at hPid
          have hValue : (-1 : Int) = n := hPid
          rw [hValue]
  · intro h
    rcases hValues.resourceCount with ⟨n, hCount, _⟩
    have hStoi : stoi? v.resourceCount = some n :=
      stoi?_eq_some_iff.mpr hCount
    have hUtilization :
        (givenOptions pid
          (v.given optional)).number .utilization = -1 := by
      rw [hOther .utilization (by decide)]
      exact h.numbers .utilization (by decide)
    have hMode :
        (assigned stoi? pid
            (v.given optional)).updateUtilization =
          false :=
      (Bool.or_false _).trans
        (decide_eq_false (not_update_given v optional))
    apply ParsedOptions.ext_fields
    · intro f
      rw [text_givenOptions, lastText_given]
    · intro f
      cases f with
      | count =>
          rw [number_givenOptions, lastNumber_given_count,
            hStoi]
          simp only [ParsedOptions.number,
            PositionalValues.options, hStoi,
            Option.getD_some]
      | mem =>
          rw [hOther .mem (by decide)]
          exact h.numbers .mem (by decide)
      | cores =>
          rw [hOther .cores (by decide)]
          exact h.numbers .cores (by decide)
      | pid =>
          rw [hOther .pid (by decide), h.pid]
          rfl
      | utilization => exact hUtilization
    · rw [hPty]
      exact decide_eq_false h.pty
    · exact hMode
    · change hintOn (assigned stoi? pid _) = false
      have hValue :
          (assigned stoi? pid
              (v.given optional)).xsched.xschedUtilization =
            -1 := hUtilization
      rw [hintOn, hMode, hValue]
      rfl

theorem agree_ok_iff
    {opts : ParsedOptions}
    {result : Except Str ParsedOptions} :
    Agree (.ok opts) result ↔ result = .ok opts := by
  cases result with
  | error error => simp [Agree]
  | ok other => simp [Agree, eq_comm]

/-
  The two forms agree exactly where the values are refused
  or the flags leave what the positional form has.
-/
theorem forms_agree_iff
    (pid : ProcessId)
    (progName : Str)
    (v : PositionalValues)
    (optional : List OptionalFlag)
    (hForm : "--".toList.isPrefixOf v.controllerAddr = false) :
    Agree
        (parseArguments pid progName
          (v.positional ++
            (optional.map OptionalFlag.argument).map
              Argument.spelled)
          defaultOptions)
        (parseArguments pid progName
          ((v.given optional).map Argument.spelled)
          defaultOptions) ↔
      (v.Accepted →
        Ineffective
          (optional.map OptionalFlag.argument)) := by
  have hArgs :
      ("--".toList ++
            ("controller".toList ++ "=".toList ++
              v.controllerAddr)) ::
          ((v.given optional).map Argument.spelled).tail =
        (v.given optional).map Argument.spelled := rfl
  have hFlags :
      ∀ opts,
        parseArguments pid progName
            ((v.given optional).map Argument.spelled)
            defaultOptions = .ok opts ↔
          Accepted (v.given optional) ∧
            opts = givenOptions pid (v.given optional) :=
    fun opts => parseArguments_spelled pid progName hArgs
  have hPositional :
      ∀ opts,
        parseArguments pid progName
            (v.positional ++
              (optional.map OptionalFlag.argument).map
                Argument.spelled)
            defaultOptions = .ok opts ↔
          v.Accepted ∧ opts = v.options :=
    fun opts => parseArguments_positional hForm
  by_cases hValues : v.Accepted
  · rw [(hPositional v.options).mpr ⟨hValues, rfl⟩,
      agree_ok_iff, hFlags]
    constructor
    · rintro ⟨hAccepted, hSame⟩ _
      exact (givenOptions_given_iff hAccepted).mp hSame.symm
    · intro h
      have hQuiet := h hValues
      have hAccepted : Accepted (v.given optional) :=
        (accepted_given_iff v optional).mpr
          ⟨hValues, hQuiet.readable,
            fun f hF n hLast => hQuiet.passes hF hLast⟩
      exact
        ⟨hAccepted,
          ((givenOptions_given_iff hAccepted).mpr
            hQuiet).symm⟩
  · have hRefused :
        ∃ error,
          parseArguments pid progName
              (v.positional ++
                (optional.map OptionalFlag.argument).map
                  Argument.spelled)
              defaultOptions = .error error := by
      cases hParse :
          parseArguments pid progName
            (v.positional ++
              (optional.map OptionalFlag.argument).map
                Argument.spelled)
            defaultOptions with
      | error error => exact ⟨error, rfl⟩
      | ok opts =>
          exact absurd ((hPositional opts).mp hParse).1 hValues
    have hRefusedFlags :
        ∃ error,
          parseArguments pid progName
              ((v.given optional).map Argument.spelled)
              defaultOptions = .error error := by
      cases hParse :
          parseArguments pid progName
            ((v.given optional).map Argument.spelled)
            defaultOptions with
      | error error => exact ⟨error, rfl⟩
      | ok opts =>
          have hAccepted := ((hFlags opts).mp hParse).1
          exact
            absurd
              ((accepted_given_iff v optional).mp hAccepted).1
              hValues
    rcases hRefused with ⟨e₁, hFirst⟩
    rcases hRefusedFlags with ⟨e₂, hSecond⟩
    rw [hFirst, hSecond]
    exact iff_of_true trivial fun h => absurd h hValues

/- A command for two processors. -/
def twoCpus : PositionalValues :=
  { controllerAddr := "host:1".toList
    srcDir := "src".toList
    workspaceSubdir := "ws".toList
    command := "run".toList
    localOutputDir := "out".toList
    resourceType := "cpu".toList
    resourceCount := "2".toList }

/- The positional form drops a memory requirement. -/
theorem forms_disagree :
    ¬ Agree
        (parseArguments ⟨1, Int.one_pos, by decide⟩
          "integrated_client".toList
          (twoCpus.positional ++
            ([OptionalFlag.mem "4096".toList].map
              OptionalFlag.argument).map Argument.spelled)
          defaultOptions)
        (parseArguments ⟨1, Int.one_pos, by decide⟩
          "integrated_client".toList
          ((twoCpus.given
            [OptionalFlag.mem "4096".toList]).map
              Argument.spelled)
          defaultOptions) := by
  decide +kernel

/- Without flags to honour, the pid has to be -1. -/
theorem forms_agree_plain :
    "--".toList.isPrefixOf twoCpus.controllerAddr = false ∧
      (Agree
        (parseArguments ⟨1, Int.one_pos, by decide⟩
          "integrated_client".toList
          (twoCpus.positional ++
            ([OptionalFlag.pid "-1".toList].map
              OptionalFlag.argument).map Argument.spelled)
          defaultOptions)
        (parseArguments ⟨1, Int.one_pos, by decide⟩
          "integrated_client".toList
          ((twoCpus.given
            [OptionalFlag.pid "-1".toList]).map
              Argument.spelled)
          defaultOptions) ↔
        (twoCpus.Accepted →
          Ineffective
            ([OptionalFlag.pid "-1".toList].map
              OptionalFlag.argument))) :=
  ⟨by decide,
    forms_agree_iff ⟨1, Int.one_pos, by decide⟩
      "integrated_client".toList
      twoCpus
      [.pid "-1".toList] (by decide)⟩

end Drex
