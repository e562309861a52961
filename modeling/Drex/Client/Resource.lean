import Drex.Client.Forms

/-
  The command line of the resource client, next to that of
  the integrated client.

  Key definitions include:
    * `ResourceFlag`
    * `ResourceClient.parseArguments`
    * `ResourceClient.applyRequestOf`
    * `ResourceClient.Alike`
    * `givenPid`

  Key theorems include:
    * `ResourceClient.alike_parseLoop`
    * `ResourceClient.checkRequest_eq_ok_iff`
    * `resource_client_agrees`
-/

------------------------------------------------------------
-- The Command Line
------------------------------------------------------------

namespace Drex

/- The request as `main` declares it. -/
structure ResourceRequest where
  controllerAddr : Str
  resourceType : Str
  resourceCount : Int
  memReq : Int
  coreReq : Int
  pid : Int
deriving DecidableEq

def defaultRequest : ResourceRequest :=
  { controllerAddr := []
    resourceType := []
    resourceCount := 0
    memReq := -1
    coreReq := -1
    pid := -1 }

/- The flags, which are also flags of the integrated client. -/
inductive ResourceFlag
| controller
| type
| count
| mem
| cores
| pid
deriving DecidableEq

/- The text a value follows. -/
def ResourceFlag.lead : ResourceFlag → Str
| .controller => "--controller=".toList
| .type => "--type=".toList
| .count => "--count=".toList
| .mem => "--mem=".toList
| .cores => "--cores=".toList
| .pid => "--pid=".toList

namespace ResourceClient

/- `PrintUsage`. -/
def usage (progName : Str) : Str :=
  printLine
    ("Usage: ".toList ++ progName ++
      (" --controller=<host:port> --type=<resource_type>" ++
        " --count=<resource_count>" ++
        " [--mem=<mem_req>] [--cores=<core_req>]" ++
        " [--pid=<pid>]").toList)

/- The flags in the order they are tried. -/
def flags : List ResourceFlag :=
  [.controller, .type, .count, .mem, .cores, .pid]

/- The tests of one argument. -/
def readFlag (arg : Str) : Option (ResourceFlag × Str) :=
  flags.findSome? fun f =>
    (consumeValue f.lead arg).map fun value => (f, value)

/- `std::stoi`, with what is logged when it throws. -/
def number (name : String) (value : Str) : Except Str Int :=
  match stoi value with
  | .ok n => .ok n
  | .error what =>
      .error
        (printLine
          ("Invalid --".toList ++ name.toList ++
            " value: ".toList ++ what))

/- What one argument does to the request. -/
def assign
    (req : ResourceRequest)
    (value : Str) :
    ResourceFlag → Except Str ResourceRequest
| .controller => .ok { req with controllerAddr := value }
| .type => .ok { req with resourceType := value }
| .count => do
    let n ← number "count" value
    return { req with resourceCount := n }
| .mem => do
    let n ← number "mem" value
    return { req with memReq := n }
| .cores => do
    let n ← number "cores" value
    return { req with coreReq := n }
| .pid => do
    let n ← number "pid" value
    return { req with pid := n }

/- The loop of `ParseArguments`. -/
def parseLoop
    (progName : Str) :
    List Str → ResourceRequest → Except Str ResourceRequest
| [], req => .ok req
| arg :: args, req =>
    match readFlag arg with
    | none =>
        .error
          (printLine ("Unknown argument: ".toList ++ arg) ++
            usage progName)
    | some (f, value) =>
        match assign req value f with
        | .error error => .error error
        | .ok req => parseLoop progName args req

/- The checks after the loop, and the default of `pid`. -/
def checkRequest
    (pid : ProcessId)
    (req : ResourceRequest) :
    Except Str ResourceRequest :=
  if req.controllerAddr = [] then
    .error (printLine "--controller must be provided.".toList)
  else if req.resourceType = [] then
    .error (printLine "--type must be provided.".toList)
  else if req.resourceCount ≤ 0 then
    .error
      (printLine "--count must be a positive integer.".toList)
  else if req.memReq = 0 ∨ req.coreReq = 0 then
    .error
      (printLine
        ("--mem/--cores must be positive integers" ++
          " when provided.").toList)
  else if req.memReq < -1 ∨ req.coreReq < -1 then
    .error
      (printLine
        ("--mem/--cores must be positive integers" ++
          " when provided.").toList)
  else if req.pid = 0 ∨ req.pid < -1 then
    .error
      (printLine
        ("--pid must be a positive integer" ++
          " when provided.").toList)
  else if req.pid < 0 then
    .ok { req with pid := pid.value }
  else
    .ok req

/-
  `ParseArguments`, on the arguments after the name of the
  program: the request, or what is printed when it refuses.
-/
def parseArguments
    (pid : ProcessId)
    (progName : Str)
    (args : List Str) :
    Except Str ResourceRequest :=
  if args.length + 1 < 4 then
    .error (usage progName)
  else
    match parseLoop progName args defaultRequest with
    | .error error => .error error
    | .ok req => checkRequest pid req

/- The request of `ApplyResource`. -/
def applyRequestOf
    (req : ResourceRequest) :
    ApplyResourceRequest :=
  { resourceType := req.resourceType
    nums := req.resourceCount
    memreq := positive? req.memReq
    corereq := positive? req.coreReq
    pid := positive? req.pid
    utilizationreq := none }

end ResourceClient

end Drex

------------------------------------------------------------
-- Arguments Both Clients Read
------------------------------------------------------------

namespace Drex

/- The flag as the integrated client reads it. -/
def ResourceFlag.argument
    (f : ResourceFlag)
    (value : Str) :
    Argument :=
  match f with
  | .controller => .text .controller value
  | .type => .text .type value
  | .count => .number .count value
  | .mem => .number .mem value
  | .cores => .number .cores value
  | .pid => .number .pid value

theorem ResourceFlag.spelled_argument
    (f : ResourceFlag)
    (value : Str) :
    (f.argument value).spelled = f.lead ++ value := by
  cases f <;> rfl

/-
  The number of the last `--pid=` of the arguments, if one is
  given.
-/
def givenPid : List Str → Option Int → Option Int
| [], last => last
| arg :: args, last =>
    givenPid args
      (match consumeValue ResourceFlag.pid.lead arg with
        | none => last
        | some value => stoi? value)

namespace ResourceClient

/- What is read was typed as that flag. -/
theorem eq_of_readFlag
    {arg value : Str}
    {f : ResourceFlag}
    (h : readFlag arg = some (f, value)) :
    arg = f.lead ++ value := by
  rcases List.exists_of_findSome?_eq_some h with
    ⟨g, _, hRead⟩
  rcases Option.map_eq_some_iff.mp hRead with
    ⟨value', hValue, hEq⟩
  rw [Prod.mk.injEq] at hEq
  rcases hEq with ⟨rfl, rfl⟩
  exact consumeValue_eq_some_iff.mp hValue

/- The integrated client reads the same. -/
theorem readArgument_of_readFlag
    {arg value : Str}
    {f : ResourceFlag}
    (h : readFlag arg = some (f, value)) :
    readArgument arg = some (f.argument value) := by
  rw [readArgument_eq_some_iff, f.spelled_argument]
  exact eq_of_readFlag h

/-
  The two clients have read the same arguments: they differ
  only in the defaults of the count and of the pid.
-/
structure Alike
    (pid : ProcessId)
    (given : Option Int)
    (req : ResourceRequest)
    (opts : ParsedOptions) : Prop where
  controller : opts.controllerAddr = req.controllerAddr
  type : opts.resourceType = req.resourceType
  count :
    opts.resourceCount = req.resourceCount ∨
      req.resourceCount = 0
  mem : opts.memReq = req.memReq
  cores : opts.coreReq = req.coreReq
  reqPid : req.pid = given.getD (-1)
  optsPid : opts.pid = given.getD pid.value
  update : opts.updateUtilization = false
  xsched : opts.xsched = ⟨false, -1⟩
  output : opts.localOutputDir = ".".toList

theorem alike_defaults (pid : ProcessId) :
    Alike pid none defaultRequest
      (flagDefaults pid defaultOptions) where
  controller := rfl
  type := rfl
  count := Or.inr rfl
  mem := rfl
  cores := rfl
  reqPid := rfl
  optsPid := rfl
  update := rfl
  xsched := rfl
  output := rfl

/- The value of `--pid=` after one more argument. -/
def nextPid
    (given : Option Int)
    (f : ResourceFlag)
    (value : Str) :
    Option Int :=
  if f = .pid then stoi? value else given

theorem givenPid_cons
    (f : ResourceFlag)
    (value : Str)
    (args : List Str)
    (given : Option Int) :
    givenPid ((f.lead ++ value) :: args) given =
      givenPid args (nextPid given f value) := by
  rw [givenPid, nextPid]
  congr 1
  by_cases hPid : f = .pid
  · subst hPid
    have hValue :
        consumeValue ResourceFlag.pid.lead
            (ResourceFlag.pid.lead ++ value) = some value :=
      consumeValue_eq_some_iff.mpr rfl
    rw [hValue, if_pos rfl]
  · have hNone :
        consumeValue ResourceFlag.pid.lead
          (f.lead ++ value) = none := by
      cases hRead :
          consumeValue ResourceFlag.pid.lead
            (f.lead ++ value) with
      | none => rfl
      | some rest =>
          exfalso
          have hPrefix :
              ResourceFlag.pid.lead <+: f.lead ++ value := by
            rw [consumeValue_eq_some_iff.mp hRead]
            exact List.prefix_append _ _
          rcases lead_of_append hPrefix with h | h
          · revert h
            cases f with
            | pid => exact absurd rfl hPid
            | controller | type | count | mem | cores =>
                decide
          · revert h
            cases f with
            | pid => exact absurd rfl hPid
            | controller | type | count | mem | cores =>
                decide
    rw [hNone, if_neg hPid]

theorem number_eq_ok_iff
    {name : String}
    {value : Str}
    {n : Int} :
    number name value = .ok n ↔ stoi value = .ok n := by
  unfold number
  cases stoi value with
  | ok m => simp
  | error what => simp

/- A number that one client reads, the other stores. -/
theorem assignArgument_number
    {opts : ParsedOptions}
    {name : String}
    {value : Str}
    {n : Int}
    (f : NumberFlag)
    (h : number name value = .ok n) :
    assignArgument opts (.number f value) =
      .ok (opts.setNumber n f) := by
  rw [assignArgument, number_eq_ok_iff.mp h]

/- An argument that one client takes, the other takes. -/
theorem Alike.assign
    {pid : ProcessId}
    {given : Option Int}
    {req req' : ResourceRequest}
    {opts : ParsedOptions}
    {f : ResourceFlag}
    {value : Str}
    (h : Alike pid given req opts)
    (hAssign : ResourceClient.assign req value f = .ok req') :
    ∃ opts',
      assignArgument opts (f.argument value) = .ok opts' ∧
        Alike pid (nextPid given f value) req' opts' := by
  cases f with
  | controller =>
      cases hAssign
      exact ⟨_, rfl, { h with controller := rfl }⟩
  | type =>
      cases hAssign
      exact ⟨_, rfl, { h with type := rfl }⟩
  | count =>
      rcases (exceptBind_eq_ok_iff _ _ _).mp hAssign with
        ⟨n, hNumber, hReq⟩
      cases hReq
      exact
        ⟨_, assignArgument_number .count hNumber,
          { h with count := Or.inl rfl }⟩
  | mem =>
      rcases (exceptBind_eq_ok_iff _ _ _).mp hAssign with
        ⟨n, hNumber, hReq⟩
      cases hReq
      exact
        ⟨_, assignArgument_number .mem hNumber,
          { h with mem := rfl }⟩
  | cores =>
      rcases (exceptBind_eq_ok_iff _ _ _).mp hAssign with
        ⟨n, hNumber, hReq⟩
      cases hReq
      exact
        ⟨_, assignArgument_number .cores hNumber,
          { h with cores := rfl }⟩
  | pid =>
      rcases (exceptBind_eq_ok_iff _ _ _).mp hAssign with
        ⟨n, hNumber, hReq⟩
      cases hReq
      have hGiven :
          nextPid given .pid value = some n := by
        rw [nextPid, if_pos rfl]
        exact stoi?_eq_some_iff.mpr (number_eq_ok_iff.mp hNumber)
      rw [hGiven]
      exact
        ⟨_, assignArgument_number .pid hNumber,
          { h with reqPid := rfl, optsPid := rfl }⟩

/- The loops of the two clients stay alike. -/
theorem alike_parseLoop
    {pid : ProcessId}
    {progName : Str}
    (progName' : Str)
    {args : List Str}
    {given : Option Int}
    {req req' : ResourceRequest}
    {opts : ParsedOptions}
    (h : Alike pid given req opts)
    (hParse : parseLoop progName args req = .ok req') :
    ∃ opts',
      (∀ more,
        parseFlags progName' (args ++ more) opts =
          parseFlags progName' more opts') ∧
        Alike pid (givenPid args given) req' opts' := by
  induction args generalizing given req opts with
  | nil =>
      cases hParse
      exact ⟨opts, fun _ => rfl, h⟩
  | cons arg args ih =>
      rw [parseLoop] at hParse
      split at hParse
      · cases hParse
      · rename_i f value hRead
        split at hParse
        · cases hParse
        · rename_i mid hAssign
          rcases h.assign hAssign with ⟨opts₁, hOpts, hAlike⟩
          rcases ih hAlike hParse with ⟨opts', hRest, hEnd⟩
          refine ⟨opts', ?_, ?_⟩
          · intro more
            rw [List.cons_append, parseFlags,
              readArgument_of_readFlag hRead]
            simp only [hOpts]
            exact hRest more
          · rw [eq_of_readFlag hRead, givenPid_cons]
            exact hEnd

/- What the checks let through. -/
structure Checked (req : ResourceRequest) : Prop where
  controller : req.controllerAddr ≠ []
  type : req.resourceType ≠ []
  count : 0 < req.resourceCount
  mem : req.memReq = -1 ∨ 0 < req.memReq
  cores : req.coreReq = -1 ∨ 0 < req.coreReq
  pid : req.pid = -1 ∨ 0 < req.pid

/- The checks, all together. -/
theorem checkRequest_eq_ok_iff
    {pid : ProcessId}
    {req req' : ResourceRequest} :
    checkRequest pid req = .ok req' ↔
      Checked req ∧
        req' =
          if req.pid < 0 then { req with pid := pid.value }
          else req := by
  have hChecks :
      Checked req ↔
        req.controllerAddr ≠ [] ∧ req.resourceType ≠ [] ∧
          ¬ req.resourceCount ≤ 0 ∧
          ¬ (req.memReq = 0 ∨ req.coreReq = 0) ∧
          ¬ (req.memReq < -1 ∨ req.coreReq < -1) ∧
          ¬ (req.pid = 0 ∨ req.pid < -1) := by
    constructor
    · rintro ⟨hController, hType, hCount, hMem, hCores, hPid⟩
      refine ⟨hController, hType, ?_⟩
      omega
    · rintro ⟨hController, hType, hNumbers⟩
      exact
        { controller := hController
          type := hType
          count := by omega
          mem := by omega
          cores := by omega
          pid := by omega }
  rw [hChecks, checkRequest]
  simp only [ite_error_eq_ok_iff, ne_eq, and_assoc]
  by_cases hPid : req.pid < 0
  · simp only [if_pos hPid, Except.ok.injEq, eq_comm]
  · simp only [if_neg hPid, Except.ok.injEq, eq_comm]

/- What passes here passes the checks of a submission. -/
theorem Alike.checkOptions
    {pid : ProcessId}
    {given : Option Int}
    {req : ResourceRequest}
    {opts : ParsedOptions}
    (h : Alike pid given req opts)
    (hChecked : Checked req)
    (hCommand : opts.command ≠ []) :
    Drex.checkOptions opts = .ok (opts.withEnabled false) ∧
      opts.resourceCount = req.resourceCount := by
  have hCount : opts.resourceCount = req.resourceCount := by
    rcases h.count with hEq | hZero
    · exact hEq
    · have hPositive := hChecked.count
      omega
  have hPid : opts.pid = -1 ∨ 0 < opts.pid := by
    rw [h.optsPid]
    have hReq := hChecked.pid
    rw [h.reqPid] at hReq
    cases hGiven : given with
    | none => exact Or.inr pid.positive
    | some n =>
        rw [hGiven] at hReq
        exact hReq
  have hPasses :
      ∀ f : NumberFlag, f.Passes (opts.number f) := by
    intro f
    cases f with
    | count =>
        change 0 < opts.resourceCount
        rw [hCount]
        exact hChecked.count
    | mem =>
        change opts.memReq = -1 ∨ 0 < opts.memReq
        rw [h.mem]
        exact hChecked.mem
    | cores =>
        change opts.coreReq = -1 ∨ 0 < opts.coreReq
        rw [h.cores]
        exact hChecked.cores
    | pid => exact hPid
    | utilization =>
        change -1 ≤ opts.xsched.xschedUtilization ∧
          opts.xsched.xschedUtilization ≤ 100
        rw [h.xsched]
        decide
  refine ⟨?_, hCount⟩
  rw [checkOptions_submission_iff h.update]
  refine ⟨⟨hCommand, ?_, ?_, hPasses⟩, ?_⟩
  · rw [h.output]
    decide
  · rw [h.type]
    exact hChecked.type
  · rw [h.xsched]
    rfl

/- The three flags the other client does not know. -/
def submission
    (srcDir workspaceSubdir command : Str) :
    List Str :=
  [TextFlag.srcDir.lead ++ srcDir,
    TextFlag.workspaceSubdir.lead ++ workspaceSubdir,
    TextFlag.command.lead ++ command]

theorem parseFlags_submission
    (progName srcDir workspaceSubdir command : Str)
    (opts : ParsedOptions) :
    parseFlags progName
        (submission srcDir workspaceSubdir command) opts =
      .ok
        { opts with
          srcDir := srcDir
          workspaceSubdir := workspaceSubdir
          command := command } := by
  have hRead (f : TextFlag) (value : Str) :
      readArgument (f.lead ++ value) = some (.text f value) :=
    readArgument_spelled (.text f value)
  simp only [submission, parseFlags, hRead, assignArgument,
    ParsedOptions.setText]

/- The first argument is a flag. -/
theorem leads_of_parseLoop
    {progName arg : Str}
    {args : List Str}
    {req req' : ResourceRequest}
    (h : parseLoop progName (arg :: args) req = .ok req') :
    "--".toList.isPrefixOf arg = true := by
  rw [parseLoop] at h
  split at h
  · cases h
  · rename_i f value hRead
    rw [eq_of_readFlag hRead]
    cases f <;> rfl

/-
  The request the two send, after the loops, is the same
  unless `--pid=-1` was given.
-/
theorem Alike.applyRequest
    {pid : ProcessId}
    {given : Option Int}
    {req req' : ResourceRequest}
    {opts : ParsedOptions}
    (h : Alike pid given req opts)
    (hCheck : checkRequest pid req = .ok req')
    (hCount : opts.resourceCount = req.resourceCount) :
    applyRequestOf req' =
        Drex.applyRequestOf
          (opts.withEnabled false).toProgramOptions ↔
      given ≠ some (-1) := by
  rcases checkRequest_eq_ok_iff.mp hCheck with ⟨hChecked, hEq⟩
  have hPids :
      applyRequestOf req' =
          Drex.applyRequestOf
            (opts.withEnabled false).toProgramOptions ↔
        positive? req'.pid = positive? opts.pid := by
    have hFields :
        req'.resourceType = opts.resourceType ∧
          req'.resourceCount = opts.resourceCount ∧
          req'.memReq = opts.memReq ∧
          req'.coreReq = opts.coreReq := by
      rw [h.type, hCount, h.mem, h.cores, hEq]
      split
      · exact ⟨rfl, rfl, rfl, rfl⟩
      · exact ⟨rfl, rfl, rfl, rfl⟩
    simp [applyRequestOf, Drex.applyRequestOf,
      ParsedOptions.withEnabled, hFields]
  rw [hPids, hEq, h.optsPid]
  have hPid := h.reqPid
  have hRange := hChecked.pid
  have hOwn := pid.positive
  rw [hPid] at hRange ⊢
  cases hGiven : given with
  | none => simp [positive?]
  | some n =>
      rw [hGiven] at hRange
      simp only [Option.getD_some] at hRange ⊢
      rcases hRange with hMinus | hPositive
      · subst hMinus
        simp [positive?, hOwn]
      · have hNot : ¬ n < 0 := by omega
        have hOther : n ≠ -1 := by omega
        rw [if_neg hNot, hPid, hGiven]
        simp [hOther]

end ResourceClient

end Drex

------------------------------------------------------------
-- One Reservation From Either Client
------------------------------------------------------------

namespace Drex

/-
  Arguments the resource client takes, with a source, a
  workspace and a command, are arguments the integrated
  client takes, and it asks the same controller for the same
  resources.  The one exception is `--pid=-1`, for which the
  resource client asks with its own pid.
-/
theorem resource_client_agrees
    (pid : ProcessId)
    (progName progName' : Str)
    {args : List Str}
    {req : ResourceRequest}
    (h :
      ResourceClient.parseArguments pid progName args =
        .ok req)
    (srcDir workspaceSubdir : Str)
    {command : Str}
    (hCommand : command ≠ []) :
    ∃ opts,
      parseArguments pid progName'
          (args ++
            ResourceClient.submission srcDir workspaceSubdir
              command)
          defaultOptions = .ok opts ∧
        opts.controllerAddr = req.controllerAddr ∧
        opts.command = command ∧
        opts.updateUtilization = false ∧
        (ResourceClient.applyRequestOf req =
            applyRequestOf opts.toProgramOptions ↔
          givenPid args none ≠ some (-1)) := by
  rw [ResourceClient.parseArguments] at h
  split at h
  · cases h
  · rename_i hLength
    split at h
    · cases h
    · rename_i parsed hParse
      rcases
          ResourceClient.alike_parseLoop progName'
            (ResourceClient.alike_defaults pid) hParse with
        ⟨opts, hFlags, hAlike⟩
      rcases ResourceClient.checkRequest_eq_ok_iff.mp h with
        ⟨hChecked, hReq⟩
      have hEnd :
          ResourceClient.Alike pid (givenPid args none) parsed
            { opts with
              srcDir := srcDir
              workspaceSubdir := workspaceSubdir
              command := command } :=
        { hAlike with }
      rcases hEnd.checkOptions hChecked hCommand with
        ⟨hCheck, hCount⟩
      refine
        ⟨_, ?_, ?_, rfl, ?_, hEnd.applyRequest h hCount⟩
      · cases args with
        | nil => simp at hLength
        | cons first rest =>
            rw [List.cons_append, parseArguments]
            simp only [
              ResourceClient.leads_of_parseLoop hParse,
              if_true]
            rw [← List.cons_append, hFlags,
              ResourceClient.parseFlags_submission]
            exact hCheck
      · change opts.controllerAddr = req.controllerAddr
        rw [hAlike.controller, hReq]
        split
        · rfl
        · rfl
      · exact hAlike.update

/- One device of a controller on this machine. -/
def oneDevice : List Str :=
  ["--controller=127.0.0.1:9000".toList,
    "--type=gpu".toList, "--count=1".toList]

def oneDeviceRequest : ResourceRequest :=
  { defaultRequest with
    controllerAddr := "127.0.0.1:9000".toList
    resourceType := "gpu".toList
    resourceCount := 1
    pid := 41 }

def clientPid : ProcessId :=
  { value := 41
    positive := by decide
    range := by decide }

theorem resource_client_agrees_oneDevice :
    ∃ opts,
      parseArguments clientPid "client".toList
          (oneDevice ++
            ResourceClient.submission "src".toList "w".toList
              "make".toList)
          defaultOptions = .ok opts ∧
        opts.controllerAddr = oneDeviceRequest.controllerAddr ∧
        opts.command = "make".toList ∧
        opts.updateUtilization = false ∧
        (ResourceClient.applyRequestOf oneDeviceRequest =
            applyRequestOf opts.toProgramOptions ↔
          givenPid oneDevice none ≠ some (-1)) := by
  have hParse :
      ResourceClient.parseArguments clientPid
          "resource".toList oneDevice =
        .ok oneDeviceRequest := by
    rfl
  exact
    resource_client_agrees _ _ _ hParse _ _ (by decide)

end Drex
