import Drex.Client.Integrated
import Drex.Server.Stores

/-
  The command line of the integrated client: the positional
  form, the flag form, and the checks after both.

  Key definitions include:
    * `stoi`
    * `readArgument`
    * `parseFlags`
    * `checkOptions`
    * `parseArguments`
    * `Argument.spelled`

  Key theorems include:
    * `stoi_of_decimalInteger`
    * `readArgument_eq_some_iff`
    * `spelled_injective`
-/

------------------------------------------------------------
-- Numbers
------------------------------------------------------------

namespace Drex

/- The range of an `int`. -/
def IntRange (n : Int) : Prop :=
  -2 ^ 31 ≤ n ∧ n ≤ 2 ^ 31 - 1

instance (n : Int) : Decidable (IntRange n) :=
  inferInstanceAs (Decidable (_ ∧ _))

/-
  `std::stoi`: blanks, a sign and digits, up to anything else.
  Both of its exceptions carry the name of the function.
-/
def stoi (text : Str) : Except Str Int :=
  match strtol text with
  | none => .error "stoi".toList
  | some (n, _) =>
      if IntRange n then .ok n else .error "stoi".toList

/- Digits and nothing else, as a number. -/
def digits? (text : Str) : Option Nat :=
  if text ≠ [] ∧ text.all Char.isDigit = true then
    some (Nat.ofDigitChars 10 text 0)
  else
    none

/- A text that is entirely a decimal integer. -/
def decimalInteger? : Str → Option Int
| '-' :: text =>
    Option.map (fun n : Nat => -(n : Int)) (digits? text)
| '+' :: text =>
    Option.map (fun n : Nat => (n : Int)) (digits? text)
| text =>
    Option.map (fun n : Nat => (n : Int)) (digits? text)

theorem digits?_eq_some
    {text : Str}
    {n : Nat}
    (h : digits? text = some n) :
    text ≠ [] ∧ (∀ c ∈ text, c.isDigit = true) ∧
      Nat.ofDigitChars 10 text 0 = n := by
  unfold digits? at h
  split at h
  · rename_i hText
    exact
      ⟨hText.1, List.all_eq_true.mp hText.2,
        Option.some.inj h⟩
  · cases h

/- A sign before digits is read with them. -/
theorem strtol_sign
    {sign : Char}
    {text : Str}
    {n : Nat}
    (hSign : sign = '-' ∨ sign = '+')
    (h : digits? text = some n) :
    strtol (sign :: text) =
      some (if sign = '-' then -(n : Int) else n, []) := by
  rcases digits?_eq_some h with ⟨hNil, hDigits, hValue⟩
  have hTake :
      text.takeWhile Char.isDigit = text ∧
        text.dropWhile Char.isDigit = [] := by
    have hEnd : ∀ c ∈ ([] : Str).head?, c.isDigit = false :=
      fun c hMem => absurd hMem (Option.not_mem_none c)
    have hBoth := takeWhile_digits hDigits hEnd
    rwa [List.append_nil] at hBoth
  have hText :
      (sign :: text).dropWhile isSpace = sign :: text := by
    rcases hSign with rfl | rfl <;> rfl
  have hHead :
      (sign :: text).head? = some '-' ∨
        (sign :: text).head? = some '+' := by
    rcases hSign with rfl | rfl
    · exact Or.inl rfl
    · exact Or.inr rfl
  unfold strtol
  simp only [hText, hHead, if_true, List.tail_cons, hTake.1,
    hTake.2, hNil, if_false, hValue]
  rcases hSign with rfl | rfl <;> rfl

/- A decimal integer is read to its end. -/
theorem strtol_of_decimalInteger
    {text : Str}
    {n : Int}
    (h : decimalInteger? text = some n) :
    strtol text = some (n, []) := by
  unfold decimalInteger? at h
  split at h
  · rename_i text
    rcases Option.map_eq_some_iff.mp h with ⟨m, hDigits, rfl⟩
    exact strtol_sign (Or.inl rfl) hDigits
  · rename_i text
    rcases Option.map_eq_some_iff.mp h with ⟨m, hDigits, rfl⟩
    exact strtol_sign (Or.inr rfl) hDigits
  · rcases Option.map_eq_some_iff.mp h with ⟨m, hText, rfl⟩
    rcases digits?_eq_some hText with ⟨hNil, hDigits, hValue⟩
    have hBlanks : ∀ c ∈ ([] : Str), isSpace c = true :=
      fun _ hMem => absurd hMem List.not_mem_nil
    have hEnd : ∀ c ∈ ([] : Str).head?, c.isDigit = false :=
      fun c hMem => absurd hMem (Option.not_mem_none c)
    have hNumber := strtol_digits hBlanks hDigits hNil hEnd
    rw [List.append_nil, hValue] at hNumber
    exact hNumber

theorem stoi_of_decimalInteger
    {text : Str}
    {n : Int}
    (h : decimalInteger? text = some n)
    (hRange : IntRange n) :
    stoi text = .ok n := by
  rw [stoi, strtol_of_decimalInteger h]
  exact if_pos hRange

end Drex

------------------------------------------------------------
-- Options
------------------------------------------------------------

namespace Drex

/-
  The options as they are parsed: `local_output_dir` is read
  by `ParseArguments` alone.
-/
structure ParsedOptions extends ProgramOptions where
  localOutputDir : Str
deriving DecidableEq

/- The options of `main`, before they are parsed. -/
def defaultOptions : ParsedOptions :=
  { controllerAddr := []
    srcDir := []
    workspaceSubdir := []
    command := []
    localOutputDir := []
    resourceType := []
    resourceCount := 0
    memReq := -1
    coreReq := -1
    pid := -1
    pty := false
    updateUtilization := false
    taskId := []
    xsched := ⟨false, -1⟩ }

/- The flags that carry a text. -/
inductive TextFlag
| controller
| srcDir
| workspaceSubdir
| command
| localOutputDir
| type
| taskId
deriving DecidableEq

/- The flags that carry a number. -/
inductive NumberFlag
| count
| mem
| cores
| pid
| utilization
deriving DecidableEq

def TextFlag.name : TextFlag → Str
| .controller => "controller".toList
| .srcDir => "src_dir".toList
| .workspaceSubdir => "workspace_subdir".toList
| .command => "command".toList
| .localOutputDir => "local_output_dir".toList
| .type => "type".toList
| .taskId => "task_id".toList

def NumberFlag.name : NumberFlag → Str
| .count => "count".toList
| .mem => "mem".toList
| .cores => "cores".toList
| .pid => "pid".toList
| .utilization => "utilization".toList

/- The option a text is stored in. -/
def ParsedOptions.text
    (opts : ParsedOptions) :
    TextFlag → Str
| .controller => opts.controllerAddr
| .srcDir => opts.srcDir
| .workspaceSubdir => opts.workspaceSubdir
| .command => opts.command
| .localOutputDir => opts.localOutputDir
| .type => opts.resourceType
| .taskId => opts.taskId

def ParsedOptions.setText
    (opts : ParsedOptions)
    (value : Str) :
    TextFlag → ParsedOptions
| .controller => { opts with controllerAddr := value }
| .srcDir => { opts with srcDir := value }
| .workspaceSubdir => { opts with workspaceSubdir := value }
| .command => { opts with command := value }
| .localOutputDir => { opts with localOutputDir := value }
| .type => { opts with resourceType := value }
| .taskId => { opts with taskId := value }

/- The option a number is stored in. -/
def ParsedOptions.number
    (opts : ParsedOptions) :
    NumberFlag → Int
| .count => opts.resourceCount
| .mem => opts.memReq
| .cores => opts.coreReq
| .pid => opts.pid
| .utilization => opts.xsched.xschedUtilization

def ParsedOptions.setNumber
    (opts : ParsedOptions)
    (value : Int) :
    NumberFlag → ParsedOptions
| .count => { opts with resourceCount := value }
| .mem => { opts with memReq := value }
| .cores => { opts with coreReq := value }
| .pid => { opts with pid := value }
| .utilization =>
    { opts with
      xsched :=
        { opts.xsched with xschedUtilization := value } }

/- Two records agree when their texts and numbers do. -/
theorem ParsedOptions.ext_fields
    {a b : ParsedOptions}
    (hText : ∀ f, a.text f = b.text f)
    (hNumber : ∀ f, a.number f = b.number f)
    (hPty : a.pty = b.pty)
    (hUpdate : a.updateUtilization = b.updateUtilization)
    (hEnabled : a.xsched.enabled = b.xsched.enabled) :
    a = b := by
  rcases a with
    ⟨⟨_, _, _, _, _, _, _, _, _, _, _, _, ⟨_, _⟩⟩, _⟩
  rcases b with
    ⟨⟨_, _, _, _, _, _, _, _, _, _, _, _, ⟨_, _⟩⟩, _⟩
  simp only [ParsedOptions.mk.injEq, ProgramOptions.mk.injEq,
    XSchedConfig.mk.injEq]
  exact
    ⟨⟨hText .controller, hText .srcDir,
      hText .workspaceSubdir, hText .command, hText .type,
      hNumber .count, hNumber .mem, hNumber .cores,
      hNumber .pid, hPty, hUpdate, hText .taskId, hEnabled,
      hNumber .utilization⟩, hText .localOutputDir⟩

@[simp] theorem ParsedOptions.text_setText
    (opts : ParsedOptions)
    (value : Str)
    (f g : TextFlag) :
    (opts.setText value f).text g =
      if f = g then value else opts.text g := by
  cases f <;> cases g <;> rfl

@[simp] theorem ParsedOptions.number_setText
    (opts : ParsedOptions)
    (value : Str)
    (f : TextFlag)
    (g : NumberFlag) :
    (opts.setText value f).number g = opts.number g := by
  cases f <;> cases g <;> rfl

@[simp] theorem ParsedOptions.text_setNumber
    (opts : ParsedOptions)
    (value : Int)
    (f : NumberFlag)
    (g : TextFlag) :
    (opts.setNumber value f).text g = opts.text g := by
  cases f <;> cases g <;> rfl

@[simp] theorem ParsedOptions.number_setNumber
    (opts : ParsedOptions)
    (value : Int)
    (f g : NumberFlag) :
    (opts.setNumber value f).number g =
      if f = g then value else opts.number g := by
  cases f <;> cases g <;> rfl

/- What neither assignment touches. -/
theorem ParsedOptions.setText_rest
    (opts : ParsedOptions)
    (value : Str)
    (f : TextFlag) :
    (opts.setText value f).pty = opts.pty ∧
      (opts.setText value f).updateUtilization =
        opts.updateUtilization ∧
      (opts.setText value f).xsched.enabled =
        opts.xsched.enabled := by
  cases f <;> exact ⟨rfl, rfl, rfl⟩

theorem ParsedOptions.setNumber_rest
    (opts : ParsedOptions)
    (value : Int)
    (f : NumberFlag) :
    (opts.setNumber value f).pty = opts.pty ∧
      (opts.setNumber value f).updateUtilization =
        opts.updateUtilization ∧
      (opts.setNumber value f).xsched.enabled =
        opts.xsched.enabled := by
  cases f <;> exact ⟨rfl, rfl, rfl⟩

end Drex

------------------------------------------------------------
-- The Parser
------------------------------------------------------------

namespace Drex

/- A text with the `std::endl` after it. -/
def printLine (text : Str) : Str :=
  text ++ "\n".toList

/- `PrintUsage`. -/
def usage (progName : Str) : Str :=
  printLine
    ("Usage: ".toList ++ progName ++
      (" <controller_addr(host:port)> <src_dir>" ++
        " <workspace_subdir> <command> <local_output_dir>" ++
        " <resource_type> <resource_count>" ++
        " [--mem=<mem_req>] [--cores=<core_req>]" ++
        " [--pid=<pid>] [--pty]" ++
        " [--utilization=<0-100>]").toList ++
      "\n   or: ".toList ++ progName ++
      (" --controller=<host:port> --src_dir=<dir>" ++
        " --workspace_subdir=<name> --command=<cmd>" ++
        " --type=<resource_type>" ++
        " [--count=<n>] [--local_output_dir=<dir>]" ++
        " [--mem=<mem_req>] [--cores=<core_req>]" ++
        " [--pid=<pid>] [--pty]" ++
        " [--utilization=<0-100>]").toList ++
      "\n   update utilization: ".toList ++ progName ++
      (" --controller=<host:port> --update_utilization" ++
        " --task_id=<task_id> --workspace_subdir=<name>" ++
        " --utilization=<0-100>").toList)

/- `--name=`, the text each value follows. -/
def TextFlag.lead (f : TextFlag) : Str :=
  "--".toList ++ f.name ++ "=".toList

def NumberFlag.lead (f : NumberFlag) : Str :=
  "--".toList ++ f.name ++ "=".toList

/- What an argument of the flag form says. -/
inductive Argument
| pty
| updateUtilization
| text (f : TextFlag) (value : Str)
| number (f : NumberFlag) (value : Str)
deriving DecidableEq

/- `ConsumeValue`. -/
def consumeValue (lead arg : Str) : Option Str :=
  if lead.isPrefixOf arg then
    some (arg.drop lead.length)
  else
    none

/- The flags with a value, in the order they are tried. -/
def textFlags : List TextFlag :=
  [.controller, .srcDir, .workspaceSubdir, .command,
    .localOutputDir, .type, .taskId]

def numberFlags : List NumberFlag :=
  [.count, .mem, .cores, .pid, .utilization]

/- The tests of one argument. -/
def readArgument (arg : Str) : Option Argument :=
  if arg = "--pty".toList then
    some .pty
  else if arg = "--update_utilization".toList then
    some .updateUtilization
  else
    (textFlags.findSome? fun f =>
      (consumeValue f.lead arg).map (.text f)).or
      (numberFlags.findSome? fun f =>
        (consumeValue f.lead arg).map (.number f))

/- What one argument does to the options. -/
def assignArgument
    (opts : ParsedOptions) :
    Argument → Except Str ParsedOptions
| .pty => .ok { opts with pty := true }
| .updateUtilization =>
    .ok { opts with updateUtilization := true }
| .text f value => .ok (opts.setText value f)
| .number f value =>
    match stoi value with
    | .ok n => .ok (opts.setNumber n f)
    | .error what =>
        .error
          (printLine
            ("Invalid --".toList ++ f.name ++
              " value: ".toList ++ what))

/- The loop of `ParseArguments` over the flag form. -/
def parseFlags
    (progName : Str) :
    List Str → ParsedOptions → Except Str ParsedOptions
| [], opts => .ok opts
| arg :: args, opts =>
    match readArgument arg with
    | none =>
        .error
          (printLine ("Unknown argument: ".toList ++ arg) ++
            usage progName)
    | some a =>
        match assignArgument opts a with
        | .error error => .error error
        | .ok opts => parseFlags progName args opts

/- The checks of `ParseArguments` after either form. -/
def checkOptions
    (opts : ParsedOptions) :
    Except Str ParsedOptions :=
  if opts.updateUtilization then
    if opts.controllerAddr = [] then
      .error
        (printLine "--controller must be provided.".toList)
    else if opts.workspaceSubdir = [] then
      .error
        (printLine
          ("--workspace_subdir must be provided for" ++
            " --update_utilization.").toList)
    else if opts.taskId = [] then
      .error
        (printLine
          ("--task_id must be provided for" ++
            " --update_utilization.").toList)
    else if opts.xsched.xschedUtilization < 0 ∨
        100 < opts.xsched.xschedUtilization then
      .error
        (printLine
          ("--update_utilization requires --utilization" ++
            " in [0, 100].").toList)
    else
      .ok
        { opts with
          xsched := { opts.xsched with enabled := true } }
  else if opts.command = [] then
    .error (printLine "Command must not be empty.".toList)
  else if opts.localOutputDir = [] then
    .error
      (printLine "Local output dir must not be empty.".toList)
  else if opts.resourceType = [] then
    .error
      (printLine "Resource type must not be empty.".toList)
  else if opts.resourceCount ≤ 0 then
    .error
      (printLine "Resource count must be positive.".toList)
  else if opts.memReq = 0 ∨ opts.coreReq = 0 then
    .error
      (printLine
        ("--mem/--cores must be positive integers" ++
          " when provided.").toList)
  else if opts.memReq < -1 ∨ opts.coreReq < -1 then
    .error
      (printLine
        ("--mem/--cores must be positive integers" ++
          " when provided.").toList)
  else if opts.pid = 0 ∨ opts.pid < -1 then
    .error
      (printLine
        ("--pid must be a positive integer" ++
          " when provided.").toList)
  else if opts.xsched.xschedUtilization < -1 ∨
      100 < opts.xsched.xschedUtilization then
    .error
      (printLine
        "--utilization must be in [0, 100].".toList)
  else
    .ok
      { opts with
        xsched :=
          { opts.xsched with
            enabled :=
              decide (0 ≤ opts.xsched.xschedUtilization) } }

/- The id of a process: a positive `int`. -/
structure ProcessId where
  value : Int
  positive : 0 < value
  range : IntRange value

/- The options the flag form starts from. -/
def flagDefaults
    (pid : ProcessId)
    (opts : ParsedOptions) :
    ParsedOptions :=
  { opts with
    resourceCount := 1
    localOutputDir := ".".toList
    pid := pid.value }

/- The positional form. What follows its values is not read. -/
def parsePositional
    (progName : Str)
    (args : List Str)
    (opts : ParsedOptions) :
    Except Str ParsedOptions :=
  match args with
  | controllerAddr :: srcDir :: workspaceSubdir :: command ::
      localOutputDir :: resourceType :: count :: _ =>
      match stoi count with
      | .ok n =>
          .ok
            { opts with
              controllerAddr := controllerAddr
              srcDir := srcDir
              workspaceSubdir := workspaceSubdir
              command := command
              localOutputDir := localOutputDir
              resourceType := resourceType
              resourceCount := n }
      | .error what =>
          .error
            (printLine
              ("Invalid resource_count: ".toList ++ what))
  | _ => .error (usage progName)

/-
  `ParseArguments`, on the arguments after the name of the
  program: the options, or what is printed when it refuses.
-/
def parseArguments
    (pid : ProcessId)
    (progName : Str)
    (args : List Str)
    (opts : ParsedOptions) :
    Except Str ParsedOptions :=
  match args with
  | [] => .error (usage progName)
  | first :: _ =>
      let parsed :=
        if "--".toList.isPrefixOf first then
          parseFlags progName args (flagDefaults pid opts)
        else
          parsePositional progName args opts
      match parsed with
      | .error error => .error error
      | .ok opts => checkOptions opts

end Drex

------------------------------------------------------------
-- Documented Arguments
------------------------------------------------------------

namespace Drex

/- A documented argument as it is typed. -/
def Argument.spelled : Argument → Str
| .pty => "--pty".toList
| .updateUtilization => "--update_utilization".toList
| .text f value => f.lead ++ value
| .number f value => f.lead ++ value

theorem consumeValue_eq_some_iff
    {lead arg value : Str} :
    consumeValue lead arg = some value ↔
      arg = lead ++ value := by
  unfold consumeValue
  by_cases hLead : lead.isPrefixOf arg = true
  · rcases List.isPrefixOf_iff_prefix.mp hLead with
      ⟨rest, rfl⟩
    rw [if_pos hLead, List.drop_left]
    constructor
    · intro h
      rw [Option.some.inj h]
    · intro h
      rw [List.append_cancel_left h]
  · have hNot : ∀ value, arg ≠ lead ++ value := by
      rintro value rfl
      exact hLead
        (List.isPrefixOf_iff_prefix.mpr
          (List.prefix_append lead value))
    simp [hLead, hNot value]

/- No flag's text starts with another's. -/
theorem TextFlag.lead_inj
    (f g : TextFlag)
    (h : f.lead <+: g.lead) :
    f = g := by
  revert h
  cases f <;> cases g <;> decide

theorem NumberFlag.lead_inj
    (f g : NumberFlag)
    (h : f.lead <+: g.lead) :
    f = g := by
  revert h
  cases f <;> cases g <;> decide

theorem lead_ne
    (f : TextFlag)
    (g : NumberFlag) :
    ¬ f.lead <+: g.lead ∧ ¬ g.lead <+: f.lead := by
  cases f <;> cases g <;> decide

/- A switch starts with no flag's text. -/
theorem not_lead_switch
    (arg : Str)
    (h : arg = "--pty".toList ∨
      arg = "--update_utilization".toList) :
    (∀ f : TextFlag, ¬ f.lead <+: arg) ∧
      ∀ f : NumberFlag, ¬ f.lead <+: arg := by
  rcases h with rfl | rfl
  · constructor <;> intro f <;> cases f <;> decide
  · constructor <;> intro f <;> cases f <;> decide

/- The first flag of a list that reads an argument. -/
theorem findSome?_consumeValue
    {F : Type}
    {lead : F → Str}
    {flags : List F}
    {build : F → Str → Argument}
    {f : F}
    {value : Str}
    (hMem : f ∈ flags)
    (hInj : ∀ g, lead g <+: lead f ++ value → g = f) :
    (flags.findSome? fun g =>
        (consumeValue (lead g) (lead f ++ value)).map
          (build g)) =
      some (build f value) := by
  induction flags with
  | nil => cases hMem
  | cons g flags ih =>
      cases hRead :
          consumeValue (lead g) (lead f ++ value) with
      | some rest =>
          have hArg := consumeValue_eq_some_iff.mp hRead
          have hSame : g = f := by
            apply hInj g
            rw [hArg]
            exact List.prefix_append _ _
          rw [hSame] at hArg
          have hValue : value = rest :=
            List.append_cancel_left hArg
          rw [List.findSome?_cons_of_isSome]
          · rw [hRead, hSame, hValue]
            rfl
          · rw [hRead]
            rfl
      | none =>
          have hOther : f ≠ g := by
            rintro rfl
            have hSelf :
                consumeValue (lead f) (lead f ++ value) =
                  some value :=
              consumeValue_eq_some_iff.mpr rfl
            exact
              absurd (hSelf.symm.trans hRead)
                (Option.some_ne_none _)
          have hRest : f ∈ flags := by
            rcases List.mem_cons.mp hMem with h | h
            · exact absurd h hOther
            · exact h
          simpa [hRead] using ih hRest

/- None reads it where none is at its start. -/
theorem findSome?_consumeValue_none
    {F : Type}
    {lead : F → Str}
    {flags : List F}
    {build : F → Str → Argument}
    {arg : Str}
    (h : ∀ g, ¬ lead g <+: arg) :
    (flags.findSome? fun g =>
        (consumeValue (lead g) arg).map (build g)) =
      none := by
  rw [List.findSome?_eq_none_iff]
  intro g _
  cases hRead : consumeValue (lead g) arg with
  | none => rfl
  | some value =>
      exfalso
      apply h g
      rw [consumeValue_eq_some_iff.mp hRead]
      exact List.prefix_append _ _

theorem mem_textFlags (f : TextFlag) : f ∈ textFlags := by
  cases f <;> decide

theorem mem_numberFlags
    (f : NumberFlag) :
    f ∈ numberFlags := by
  cases f <;> decide

/- A text before another shares its start. -/
theorem lead_of_append
    {a b value : Str}
    (h : a <+: b ++ value) :
    a <+: b ∨ b <+: a :=
  List.prefix_or_prefix_of_prefix h
    (List.prefix_append b value)

/- What is read is what was spelled. -/
theorem readArgument_spelled
    (a : Argument) :
    readArgument a.spelled = some a := by
  cases a with
  | pty =>
      have hSpelled :
          Argument.spelled .pty = "--pty".toList := rfl
      rw [hSpelled, readArgument, if_pos rfl]
  | updateUtilization =>
      have hOther :
          "--update_utilization".toList ≠
            "--pty".toList := by
        decide
      have hSpelled :
          Argument.spelled .updateUtilization =
            "--update_utilization".toList := rfl
      rw [hSpelled, readArgument, if_neg hOther, if_pos rfl]
  | text f value =>
      have hInj :
          ∀ g : TextFlag,
            g.lead <+: f.lead ++ value → g = f := by
        intro g hLead
        rcases lead_of_append hLead with h | h
        · exact g.lead_inj f h
        · exact (f.lead_inj g h).symm
      have hSwitch :
          ∀ arg, arg = "--pty".toList ∨
              arg = "--update_utilization".toList →
            f.lead ++ value ≠ arg := by
        intro arg hArg hEq
        apply (not_lead_switch arg hArg).1 f
        rw [← hEq]
        exact List.prefix_append _ _
      have hFind :
          (textFlags.findSome? fun g =>
              (consumeValue g.lead (f.lead ++ value)).map
                (Argument.text g)) =
            some (Argument.text f value) :=
        findSome?_consumeValue (mem_textFlags f) hInj
      change readArgument (f.lead ++ value) = _
      unfold readArgument
      rw [if_neg (hSwitch _ (Or.inl rfl)),
        if_neg (hSwitch _ (Or.inr rfl)), hFind]
      exact Option.some_or
  | number f value =>
      have hInj :
          ∀ g : NumberFlag,
            g.lead <+: f.lead ++ value → g = f := by
        intro g hLead
        rcases lead_of_append hLead with h | h
        · exact g.lead_inj f h
        · exact (f.lead_inj g h).symm
      have hNone :
          ∀ g : TextFlag, ¬ g.lead <+: f.lead ++ value := by
        intro g hLead
        rcases lead_of_append hLead with h | h
        · exact (lead_ne g f).1 h
        · exact (lead_ne g f).2 h
      have hSwitch :
          ∀ arg, arg = "--pty".toList ∨
              arg = "--update_utilization".toList →
            f.lead ++ value ≠ arg := by
        intro arg hArg hEq
        apply (not_lead_switch arg hArg).2 f
        rw [← hEq]
        exact List.prefix_append _ _
      have hFind :
          (numberFlags.findSome? fun g =>
              (consumeValue g.lead (f.lead ++ value)).map
                (Argument.number g)) =
            some (Argument.number f value) :=
        findSome?_consumeValue (mem_numberFlags f) hInj
      change readArgument (f.lead ++ value) = _
      unfold readArgument
      rw [if_neg (hSwitch _ (Or.inl rfl)),
        if_neg (hSwitch _ (Or.inr rfl)),
        findSome?_consumeValue_none hNone, hFind]
      exact Option.none_or

/- What a flag reads was typed as that flag. -/
theorem spelled_of_findSome?
    {F : Type}
    {lead : F → Str}
    {flags : List F}
    {build : F → Str → Argument}
    {arg : Str}
    {a : Argument}
    (hSpelled :
      ∀ f value, (build f value).spelled = lead f ++ value)
    (h :
      (flags.findSome? fun g =>
          (consumeValue (lead g) arg).map (build g)) =
        some a) :
    arg = a.spelled := by
  rcases List.exists_of_findSome?_eq_some h with
    ⟨f, _, hRead⟩
  rcases Option.map_eq_some_iff.mp hRead with
    ⟨value, hValue, rfl⟩
  rw [consumeValue_eq_some_iff.mp hValue, hSpelled]

theorem readArgument_eq_some_iff
    {arg : Str}
    {a : Argument} :
    readArgument arg = some a ↔ arg = a.spelled := by
  constructor
  · intro h
    unfold readArgument at h
    split at h
    · rw [← Option.some.inj h]
      assumption
    · split at h
      · rw [← Option.some.inj h]
        assumption
      · rcases Option.or_eq_some_iff.mp h with
          hText | ⟨_, hNumber⟩
        · have hSpelled :
              ∀ (f : TextFlag) value,
                (Argument.text f value).spelled =
                  f.lead ++ value :=
            fun _ _ => rfl
          exact spelled_of_findSome? hSpelled hText
        · have hSpelled :
              ∀ (f : NumberFlag) value,
                (Argument.number f value).spelled =
                  f.lead ++ value :=
            fun _ _ => rfl
          exact spelled_of_findSome? hSpelled hNumber
  · rintro rfl
    exact readArgument_spelled a

/- One step of the loop, on a documented argument. -/
theorem parseFlags_cons
    (progName : Str)
    (a : Argument)
    (args : List Str)
    (opts : ParsedOptions) :
    parseFlags progName (a.spelled :: args) opts =
      match assignArgument opts a with
      | .error error => .error error
      | .ok opts => parseFlags progName args opts := by
  rw [parseFlags, readArgument_spelled]

/- The arguments say one thing each. -/
theorem spelled_injective :
    Function.Injective Argument.spelled := by
  intro a b h
  have hRead := readArgument_spelled a
  rw [h, readArgument_spelled] at hRead
  exact (Option.some.inj hRead).symm

end Drex
