import Drex.Client.Resource
import Drex.Core.Format
import Drex.Server.Discovery

/-
  The resource client at work: the calls to the controller,
  and the lines it prints for scripts.

  Key definitions include:
    * `ResourceClient.printResource`
    * `ResourceClient.printAllocatedResources`
    * `ResourceClient.runResourceClient`
    * `ResourceClient.main`
    * `Placement`
    * `placements`
    * `placementLine`
    * `readPlacements`

  Key theorems include:
    * `write_placementLine`
    * `readPlacements_printed`
    * `resource_output_read`
-/

------------------------------------------------------------
-- The Program
------------------------------------------------------------

namespace Drex

/- What the resource client does outside its process. -/
inductive ResourceOp
| initChannel (controllerAddr : Str)
| applyResource (request : ApplyResourceRequest)
| queryResource (taskId : Str)
| log (text : Str)
| print (text : Str)
deriving DecidableEq

/- The answer to each operation. -/
@[reducible] def ResourceResp : ResourceOp → Type
| .initChannel _ => Bool
| .applyResource _ => ControllerReply Str
| .queryResource _ => ControllerReply (List ResourceInfo)
| .log _ => Unit
| .print _ => Unit

abbrev ResourceProg :=
  Core.Prog ResourceOp ResourceResp

abbrev resourcePerform
    (op : ResourceOp) :
    ResourceProg (ResourceResp op) :=
  Core.Prog.perform op

namespace ResourceClient

/- What `CheckStep` logs for a reply, if it failed. -/
def checkStep
    {α : Type}
    (stepName : String)
    (reply : ControllerReply α) :
    Except Str α :=
  match reply with
  | .error errorText =>
      .error
        (printLine
          (stepName.toList ++ " RPC failed: ".toList ++
            errorText))
  | .ok response =>
      if response.errcode ≠ 0 then
        .error
          (printLine
            (stepName.toList ++ " failed: ".toList ++
              response.errmsg))
      else
        .ok response.answer

/- `InitializeControllerChannel`. -/
def initializeControllerChannel
    (req : ResourceRequest) :
    ResourceProg Bool := do
  let ready ←
    resourcePerform (.initChannel req.controllerAddr)
  if ready = false then
    resourcePerform
      (.log (printLine "Init Channel Failed".toList))
    return false
  else
    return true

/- `ApplyResource`, with the id it stores for its caller. -/
def applyResource
    (req : ResourceRequest) :
    ResourceProg (Option Str) := do
  let reply ←
    resourcePerform (.applyResource (applyRequestOf req))
  match checkStep "apply_resource" reply with
  | .error error =>
      resourcePerform (.log error)
      return none
  | .ok taskId =>
      resourcePerform
        (.log
          (printLine
            ("Apply success, task_id = ".toList ++ taskId)))
      return some taskId

/- `QueryResource`, with the response of its caller. -/
def queryResource
    (taskId : Str) :
    ResourceProg (Option (List ResourceInfo)) := do
  let reply ← resourcePerform (.queryResource taskId)
  match checkStep "query_resource" reply with
  | .error error =>
      resourcePerform (.log error)
      return none
  | .ok rinfos => return some rinfos

/- `FormatCpuCores`. -/
def formatCpuCores (cores : List Int) : Str :=
  cores.zipIdx.flatMap fun core =>
    (if core.2 ≠ 0 then ",".toList else []) ++ decimal core.1

/- The line of one resource that has a node. -/
def printResource
    (i : Nat)
    (node : NodeId)
    (info : ResourceInfo) :
    Str :=
  "Resource[".toList ++ decimal i ++ "]: IP=".toList ++
    node.ip ++ ", Port=".toList ++ decimal node.port ++
    (match info.cgroupPath with
      | none => []
      | some path => ", CGroup=".toList ++ path) ++
    (if info.cpuCores ≠ [] then
      ", CPUCores=".toList ++ formatCpuCores info.cpuCores
    else
      []) ++
    "\n".toList

/- The loop of `PrintAllocatedResources`. -/
def printFrom :
    Nat → List ResourceInfo → ResourceProg Unit
| _, [] => pure ()
| i, info :: rinfos =>
    match info.node with
    | none => printFrom (i + 1) rinfos
    | some node => do
        resourcePerform (.print (printResource i node info))
        printFrom (i + 1) rinfos

/- `PrintAllocatedResources`. -/
def printAllocatedResources
    (rinfos : List ResourceInfo) :
    ResourceProg Unit :=
  printFrom 0 rinfos

/- `RunResourceClient`. -/
def runResourceClient
    (req : ResourceRequest) :
    ResourceProg Int := do
  let ready ← initializeControllerChannel req
  if ready = false then
    return -1
  else
    let applied ← applyResource req
    match applied with
    | none => return -1
    | some taskId =>
        let queried ← queryResource taskId
        match queried with
        | none => return -1
        | some rinfos =>
            printAllocatedResources rinfos
            return 0

/- `main`. -/
def main
    (pid : ProcessId)
    (progName : Str)
    (args : List Str) :
    ResourceProg Int :=
  match parseArguments pid progName args with
  | .error error => do
      resourcePerform (.log error)
      return -1
  | .ok req => runResourceClient req

end ResourceClient

end Drex

------------------------------------------------------------
-- The Lines
------------------------------------------------------------

namespace Drex

/- What one printed line tells. -/
structure Placement where
  index : Int
  ip : Str
  port : Int
  cgroupPath : Option Str
  cpuCores : List Int
deriving DecidableEq

/- The placements of resources numbered from `i` on. -/
def placementsFrom : Nat → List ResourceInfo → List Placement
| _, [] => []
| i, info :: rinfos =>
    match info.node with
    | none => placementsFrom (i + 1) rinfos
    | some node =>
        ⟨i, node.ip, node.port, info.cgroupPath,
            info.cpuCores⟩ ::
          placementsFrom (i + 1) rinfos

/- The resources of a response that have a node. -/
def placements (rinfos : List ResourceInfo) : List Placement :=
  placementsFrom 0 rinfos

/- A number, read as `strtol` reads it. -/
def numberFormat : Core.Format Char Int where
  write := decimal
  read := strtol
  Fits _ := True
  Ends rest := ∀ c ∈ rest.head?, c.isDigit = false
  read_write := by
    intro n rest _ hRest
    have hBlanks : ∀ c ∈ ([] : Str), isSpace c = true := by
      simp
    exact strtol_decimal n hBlanks hRest

/- The text of a field, up to a comma or the end of a line. -/
def fieldFormat : Core.Format Char Str :=
  .before fun c => decide (c = ',' ∨ c = '\n')

/- The cores, which are left out when there are none. -/
def coresFormat : Core.Format Char (List Int) :=
  (Core.Format.optional ", CPUCores=".toList
    (numberFormat.listed ',' (by simp [numberFormat]))).map
    (fun cores => cores.getD [])
    (fun cores => if cores = [] then none else some cores)
    (by
      intro cores
      by_cases hNil : cores = []
      · simp [hNil]
      · simp [hNil])

/- The cgroup, which a resource need not have. -/
def cgroupFormat : Core.Format Char (Option Str) :=
  .optional ", CGroup=".toList fieldFormat

theorem write_coresFormat (cores : List Int) :
    coresFormat.write cores =
      if cores ≠ [] then
        ", CPUCores=".toList ++
          numberFormat.writeListed ',' cores
      else
        [] := by
  cases cores with
  | nil => rfl
  | cons core cores => rfl

theorem write_cgroupFormat (path : Option Str) :
    cgroupFormat.write path =
      match path with
      | none => []
      | some path => ", CGroup=".toList ++ path := by
  cases path with
  | none => rfl
  | some path => rfl

/- The end of a line, with the cores or without. -/
theorem coresFormat_line
    (cores : List Int)
    (rest : Str) :
    (∃ tail,
        coresFormat.write cores ++ ("\n".toList ++ rest) =
          ", CPUCores=".toList ++ tail) ∨
      coresFormat.write cores ++ ("\n".toList ++ rest) =
        '\n' :: rest := by
  rw [write_coresFormat]
  by_cases hNil : cores = []
  · right
    simp [hNil]
  · left
    rw [if_pos hNil, List.append_assoc]
    exact ⟨_, rfl⟩

/- Cores may stand at the end of a line. -/
theorem coresFormat_ends (rest : Str) :
    coresFormat.Ends ("\n".toList ++ rest) := by
  refine ⟨⟨?_, ?_⟩, ?_⟩
  · intro c hHead
    cases hHead
    decide
  · intro hHead
    cases hHead
  · intro hPrefix
    cases hPrefix with
    | intro tail hEq => cases hEq

/- A cgroup may stand before the cores. -/
theorem cgroupFormat_ends
    (cores : List Int)
    (rest : Str) :
    cgroupFormat.Ends
      (coresFormat.write cores ++ ("\n".toList ++ rest)) := by
  rcases coresFormat_line cores rest with ⟨tail, hLine⟩ | hLine
  · rw [hLine]
    refine ⟨?_, ?_⟩
    · intro c hHead
      cases hHead
      decide
    · rintro ⟨more, hEq⟩
      cases hEq
  · rw [hLine]
    refine ⟨?_, ?_⟩
    · intro c hHead
      cases hHead
      decide
    · rintro ⟨more, hEq⟩
      cases hEq

/- A port may stand before the cgroup. -/
theorem numberFormat_ends
    (path : Option Str)
    (cores : List Int)
    (rest : Str) :
    numberFormat.Ends
      (cgroupFormat.write path ++
        (coresFormat.write cores ++
          ("\n".toList ++ rest))) := by
  intro c hHead
  cases path with
  | some path =>
      cases hHead
      decide
  | none =>
      rw [write_cgroupFormat, List.nil_append] at hHead
      rcases coresFormat_line cores rest with
        ⟨tail, hLine⟩ | hLine
      · rw [hLine] at hHead
        cases hHead
        decide
      · rw [hLine] at hHead
        cases hHead
        decide

/- What stands behind the port. -/
def lineEnd :
    Core.Format Char (Option Str × List Int × Unit) :=
  cgroupFormat.pair
    (coresFormat.pair (.literal "\n".toList)
      (fun _ rest _ _ => coresFormat_ends rest))
    (fun b rest _ _ => by
      change
        cgroupFormat.Ends
          (coresFormat.write b.1 ++ "\n".toList ++ rest)
      rw [List.append_assoc]
      exact cgroupFormat_ends b.1 rest)

theorem write_lineEnd
    (p : Option Str × List Int × Unit) :
    lineEnd.write p =
      cgroupFormat.write p.1 ++
        (coresFormat.write p.2.1 ++ "\n".toList) :=
  rfl

/- A line, as a script takes it apart. -/
def placementLine : Core.Format Char Placement :=
  (((numberFormat.pair
      ((fieldFormat.pair
        ((numberFormat.pair lineEnd
          (fun b rest _ _ => by
            rw [write_lineEnd, List.append_assoc,
              List.append_assoc]
            exact numberFormat_ends b.1 b.2.1 rest)).lead
          ", Port=".toList)
        (fun _ _ _ _ c hHead => by
          cases hHead
          decide)).lead
        "]: IP=".toList)
      (fun _ _ _ _ c hHead => by
        cases hHead
        decide)).lead
      "Resource[".toList)).map
    (fun q => ⟨q.1, q.2.1, q.2.2.1, q.2.2.2.1, q.2.2.2.2.1⟩)
    (fun p =>
      (p.index, p.ip, p.port, p.cgroupPath, p.cpuCores, ()))
    (fun _ => rfl)

theorem write_placementLine (p : Placement) :
    placementLine.write p =
      "Resource[".toList ++ (decimal p.index ++
        ("]: IP=".toList ++ (p.ip ++ (", Port=".toList ++
          (decimal p.port ++
            lineEnd.write
              (p.cgroupPath, p.cpuCores, ())))))) :=
  rfl

/- The lines of a whole output. -/
def readPlacements (output : Str) : Option (List Placement) :=
  placementLine.readAll output.length output

end Drex

------------------------------------------------------------
-- Reading What Is Printed
------------------------------------------------------------

namespace Drex

/- Neither a comma nor the end of a line is in the text. -/
def Plain (text : Str) : Prop :=
  ',' ∉ text ∧ '\n' ∉ text

/- The addresses and the cgroups of a response are plain. -/
def PlainResources (rinfos : List ResourceInfo) : Prop :=
  ∀ info ∈ rinfos,
    (∀ node ∈ info.node, Plain node.ip) ∧
      ∀ path ∈ info.cgroupPath, Plain path

theorem fieldFormat_fits
    {text : Str}
    (h : Plain text) :
    fieldFormat.Fits text := by
  intro c hMem
  apply decide_eq_false
  rintro (hComma | hLine)
  · rw [hComma] at hMem
    exact h.1 hMem
  · rw [hLine] at hMem
    exact h.2 hMem

theorem placementLine_fits
    {p : Placement}
    (hIp : Plain p.ip)
    (hPath : ∀ path ∈ p.cgroupPath, Plain path) :
    placementLine.Fits p := by
  have hCores : coresFormat.Fits p.cpuCores := by
    intro cores hMem
    have hEq :
        (if p.cpuCores = [] then none
          else some p.cpuCores) = some cores :=
      hMem
    split at hEq
    · cases hEq
    · rename_i hNil
      cases hEq
      exact ⟨hNil, fun _ _ => trivial⟩
  exact
    ⟨trivial, trivial, trivial, fieldFormat_fits hIp, trivial,
      trivial,
      fun path hMem => fieldFormat_fits (hPath path hMem),
      hCores, trivial⟩

namespace ResourceClient

/- A comma stands before every core but the first. -/
theorem formatCpuCores_from
    (cores : List Int)
    (core : Int)
    (i : Nat) :
    ((core :: cores).zipIdx i).flatMap
        (fun core =>
          (if core.2 ≠ 0 then ",".toList else []) ++
            decimal core.1) =
      (if i ≠ 0 then ",".toList else []) ++
        numberFormat.writeListed ',' (core :: cores) := by
  induction cores generalizing core i with
  | nil => simp [numberFormat, Core.Format.writeListed]
  | cons next cores ih =>
      rw [List.zipIdx_cons, List.flatMap_cons, ih next (i + 1)]
      rw [Core.Format.writeListed_cons]
      simp [numberFormat]

theorem formatCpuCores_eq (cores : List Int) :
    formatCpuCores cores =
      numberFormat.writeListed ',' cores := by
  cases cores with
  | nil => rfl
  | cons core cores =>
      rw [formatCpuCores, formatCpuCores_from]
      rfl

/- The line of a resource is a line of the format. -/
theorem printResource_eq
    (i : Nat)
    (node : NodeId)
    (info : ResourceInfo) :
    printResource i node info =
      placementLine.write
        ⟨i, node.ip, node.port, info.cgroupPath,
          info.cpuCores⟩ := by
  unfold printResource
  rw [write_placementLine, write_lineEnd, write_cgroupFormat,
    write_coresFormat, formatCpuCores_eq]
  simp only [List.append_assoc]

end ResourceClient

/- The lines of a response, one after the other. -/
def placementText (rinfos : List ResourceInfo) : Str :=
  (placements rinfos).flatMap placementLine.write

theorem placements_fit
    {rinfos : List ResourceInfo}
    (h : PlainResources rinfos)
    (i : Nat) :
    ∀ p ∈ placementsFrom i rinfos, placementLine.Fits p := by
  induction rinfos generalizing i with
  | nil => simp [placementsFrom]
  | cons info rinfos ih =>
      have hLater :=
        ih (fun other hMem =>
          h other (List.mem_cons_of_mem info hMem)) (i + 1)
      rcases h info List.mem_cons_self with ⟨hNode, hPath⟩
      intro p hMem
      rw [placementsFrom] at hMem
      split at hMem
      · exact hLater p hMem
      · rename_i node hSome
        rcases List.mem_cons.mp hMem with rfl | hMem
        · exact placementLine_fits (hNode node hSome) hPath
        · exact hLater p hMem

/- Each line takes up text. -/
theorem length_le_flatMap
    (ps : List Placement) :
    ps.length ≤ (ps.flatMap placementLine.write).length := by
  induction ps with
  | nil => exact Nat.le_refl _
  | cons p ps ih =>
      have hLine : 0 < (placementLine.write p).length := by
        change 0 < ("Resource[".toList ++ _).length
        rw [List.length_append]
        exact Nat.add_pos_left (by decide) _
      rw [List.flatMap_cons, List.length_append,
        List.length_cons]
      omega

/- What was printed is read back. -/
theorem readPlacements_printed
    {rinfos : List ResourceInfo}
    (h : PlainResources rinfos) :
    readPlacements (placementText rinfos) =
      some (placements rinfos) := by
  apply Core.Format.readAll_write
  · exact fun _ => trivial
  · intro p hMem
    refine ⟨placements_fit h 0 p hMem, ?_⟩
    change "Resource[".toList ++ _ ≠ []
    exact List.append_ne_nil_of_left_ne_nil (by decide) _
  · exact length_le_flatMap (placements rinfos)

/- The node of a line, as the integrated client stores it. -/
def Placement.allocation (p : Placement) : ResourceAllocation :=
  ⟨p.ip, p.port, p.cgroupPath.getD [], p.cpuCores⟩

theorem le_index_of_mem
    {rinfos : List ResourceInfo}
    {p : Placement}
    {i : Nat}
    (h : p ∈ placementsFrom i rinfos) :
    (i : Int) ≤ p.index := by
  induction rinfos generalizing i with
  | nil => cases h
  | cons info rinfos ih =>
      rw [placementsFrom] at h
      split at h
      · have hLater := ih h
        omega
      · rcases List.mem_cons.mp h with rfl | h
        · exact Int.le_refl _
        · have hLater := ih h
          omega

/-
  The line numbered 0 names the node that the integrated
  client runs on; without that line it has none.
-/
theorem allocationOf_iff_placement
    (rinfos : List ResourceInfo)
    (node : ResourceAllocation) :
    allocationOf rinfos = .ok node ↔
      ∃ p ∈ placements rinfos,
        p.index = 0 ∧ node = p.allocation := by
  rw [allocationOf_eq_ok_iff]
  constructor
  · rintro ⟨info, rest, found, rfl, hNode, rfl⟩
    rw [placements, placementsFrom, hNode]
    exact ⟨_, List.mem_cons_self, rfl, rfl⟩
  · rintro ⟨p, hMem, hIndex, rfl⟩
    rw [placements] at hMem
    cases rinfos with
    | nil => cases hMem
    | cons info rest =>
        have hLater (h : p ∈ placementsFrom 1 rest) :
            False := by
          have hLe := le_index_of_mem h
          omega
        rw [placementsFrom] at hMem
        split at hMem
        · exact (hLater hMem).elim
        · rename_i found hNode
          rcases List.mem_cons.mp hMem with rfl | hMem
          · exact ⟨info, rest, found, rfl, hNode, rfl⟩
          · exact (hLater hMem).elim

end Drex

------------------------------------------------------------
-- A Run
------------------------------------------------------------

namespace Drex

open Drex.Core.Prog

abbrev ResourceEvent :=
  Core.Prog.Event ResourceOp ResourceResp

namespace ResourceEvent

def printed : ResourceEvent → Str
| ⟨.print text, _⟩ => text
| _ => []

end ResourceEvent

/- What a run puts on the standard output. -/
def printedBy (trace : List ResourceEvent) : Str :=
  trace.flatMap ResourceEvent.printed

theorem printedBy_append (first second : List ResourceEvent) :
    printedBy (first ++ second) =
      printedBy first ++ printedBy second :=
  List.flatMap_append

/- The controller and the terminal may answer anything. -/
def AnyReply (op : ResourceOp) (_ : ResourceResp op) : Prop :=
  True

namespace ResourceClient

theorem produces_printFrom
    (rinfos : List ResourceInfo)
    (i : Nat) :
    Produces AnyReply (printFrom i rinfos)
      (fun _ trace =>
        printedBy trace =
          (placementsFrom i rinfos).flatMap
            placementLine.write) := by
  induction rinfos generalizing i with
  | nil =>
      apply produces_pure
      rfl
  | cons info rinfos ih =>
      rw [printFrom, placementsFrom]
      split
      · exact ih (i + 1)
      · rename_i node hNode
        apply produces_call
        intro _ _
        refine produces_mono ?_ (ih (i + 1))
        intro _ trace hTrace
        rw [List.flatMap_cons, ← hTrace, ← printResource_eq]
        rfl

/-
  What a run that exits with 0 applied for, was told and
  printed.
-/
def Reported
    (req : ResourceRequest)
    (trace : List ResourceEvent) : Prop :=
  ∃ applied queried,
    ⟨.applyResource (applyRequestOf req), .ok applied⟩ ∈
        trace ∧
      applied.errcode = 0 ∧
      ⟨.queryResource applied.answer, .ok queried⟩ ∈ trace ∧
      queried.errcode = 0 ∧
      printedBy trace = placementText queried.answer

theorem checkStep_eq_ok_iff
    {α : Type}
    {stepName : String}
    {reply : ControllerReply α}
    {answer : α} :
    checkStep stepName reply = .ok answer ↔
      ∃ response, reply = .ok response ∧
        response.errcode = 0 ∧ response.answer = answer := by
  cases reply with
  | error errorText => simp [checkStep]
  | ok response =>
      unfold checkStep
      by_cases hCode : response.errcode = 0
      · simp [hCode]
      · simp [hCode]

theorem produces_initializeControllerChannel
    (req : ResourceRequest) :
    Produces AnyReply (initializeControllerChannel req)
      (fun _ trace => printedBy trace = []) := by
  unfold initializeControllerChannel
  apply produces_call
  intro ready _
  cases ready with
  | false =>
      apply produces_call
      intro _ _
      exact produces_pure rfl
  | true => exact produces_pure rfl

/- An id is stored only for a successful reply. -/
theorem produces_applyResource
    (req : ResourceRequest) :
    Produces AnyReply (applyResource req)
      (fun applied trace =>
        printedBy trace = [] ∧
          ∀ taskId ∈ applied, ∃ response,
            ⟨.applyResource (applyRequestOf req),
                .ok response⟩ ∈ trace ∧
              response.errcode = 0 ∧
              response.answer = taskId) := by
  unfold applyResource
  apply produces_call
  intro reply _
  cases hStep : checkStep "apply_resource" reply with
  | error error =>
      apply produces_call
      intro _ _
      exact produces_pure ⟨rfl, by simp⟩
  | ok taskId =>
      rcases checkStep_eq_ok_iff.mp hStep with
        ⟨response, rfl, hCode, hAnswer⟩
      apply produces_call
      intro _ _
      apply produces_pure
      refine ⟨rfl, ?_⟩
      intro found hFound
      cases hFound
      exact ⟨response, List.mem_cons_self, hCode, hAnswer⟩

theorem produces_queryResource (taskId : Str) :
    Produces AnyReply (queryResource taskId)
      (fun queried trace =>
        printedBy trace = [] ∧
          ∀ rinfos ∈ queried, ∃ response,
            ⟨.queryResource taskId, .ok response⟩ ∈ trace ∧
              response.errcode = 0 ∧
              response.answer = rinfos) := by
  unfold queryResource
  apply produces_call
  intro reply _
  cases hStep : checkStep "query_resource" reply with
  | error error =>
      apply produces_call
      intro _ _
      exact produces_pure ⟨rfl, by simp⟩
  | ok rinfos =>
      rcases checkStep_eq_ok_iff.mp hStep with
        ⟨response, rfl, hCode, hAnswer⟩
      apply produces_pure
      refine ⟨rfl, ?_⟩
      intro found hFound
      cases hFound
      exact ⟨response, List.mem_cons_self, hCode, hAnswer⟩

/- Only a run that reached the end prints, or exits with 0. -/
theorem produces_runResourceClient
    (req : ResourceRequest) :
    Produces AnyReply (runResourceClient req)
      (fun code trace =>
        code = 0 ∧ Reported req trace ∨
          code = -1 ∧ printedBy trace = []) := by
  unfold runResourceClient
  refine
    produces_bind (produces_initializeControllerChannel req) ?_
  intro ready opened hOpened
  cases ready with
  | false =>
      apply produces_pure
      rw [List.append_nil]
      exact Or.inr ⟨rfl, hOpened⟩
  | true =>
      refine produces_bind (produces_applyResource req) ?_
      rintro applied calls ⟨hCalls, hApplied⟩
      cases applied with
      | none =>
          apply produces_pure
          refine Or.inr ⟨rfl, ?_⟩
          simp only [printedBy_append, hOpened, hCalls,
            List.append_nil]
      | some taskId =>
          rcases hApplied taskId rfl with
            ⟨response, hMem, hCode, rfl⟩
          refine
            produces_bind
              (produces_queryResource response.answer) ?_
          rintro queried asked ⟨hAsked, hQueried⟩
          cases queried with
          | none =>
              apply produces_pure
              refine Or.inr ⟨rfl, ?_⟩
              simp only [printedBy_append, hOpened, hCalls,
                hAsked, List.append_nil]
          | some rinfos =>
              rcases hQueried rinfos rfl with
                ⟨answer, hQuery, hQueryCode, rfl⟩
              refine
                produces_bind
                  (produces_printFrom answer.answer 0) ?_
              intro _ lines hLines
              apply produces_pure
              refine
                Or.inl
                  ⟨rfl, response, answer, ?_, hCode, ?_,
                    hQueryCode, ?_⟩
              · simp only [List.mem_append]
                exact Or.inr (Or.inl hMem)
              · simp only [List.mem_append]
                exact Or.inr (Or.inr (Or.inl hQuery))
              · simp only [printedBy_append, hOpened, hCalls,
                  hAsked, hLines, List.append_nil,
                  List.nil_append]
                rfl

theorem produces_main
    (pid : ProcessId)
    (progName : Str)
    (args : List Str) :
    Produces AnyReply (main pid progName args)
      (fun code trace =>
        (code = 0 ∧ ∃ req,
            parseArguments pid progName args = .ok req ∧
              Reported req trace) ∨
          code = -1 ∧ printedBy trace = []) := by
  unfold main
  cases hParse : parseArguments pid progName args with
  | error error =>
      apply produces_call
      intro _ _
      apply produces_pure
      exact Or.inr ⟨rfl, rfl⟩
  | ok req =>
      refine produces_mono ?_ (produces_runResourceClient req)
      rintro code trace (⟨hCode, hReported⟩ | hFailed)
      · exact Or.inl ⟨hCode, req, rfl, hReported⟩
      · exact Or.inr hFailed

end ResourceClient

end Drex

------------------------------------------------------------
-- What A Script Learns
------------------------------------------------------------

namespace Drex

/-
  Whatever the controller answers: a run of the resource
  client prints nothing and exits with -1, or it exits with 0
  after a reservation was made and queried.  Then, with plain
  addresses and cgroups, its output is read back as the
  resources of the response that have a node, in order, and
  the line numbered 0 names the node the integrated client
  would run on.
-/
theorem resource_output_read
    (pid : ProcessId)
    (progName : Str)
    (args : List Str)
    {trace : List ResourceEvent}
    {code : Int}
    (hRun :
      Core.Prog.Finishes AnyReply
        (ResourceClient.main pid progName args) trace code) :
    (code = -1 ∧ printedBy trace = []) ∨
      (code = 0 ∧ ∃ req applied queried,
        ResourceClient.parseArguments pid progName args =
            .ok req ∧
          ⟨.applyResource (ResourceClient.applyRequestOf req),
              .ok applied⟩ ∈ trace ∧
          applied.errcode = 0 ∧
          ⟨.queryResource applied.answer, .ok queried⟩ ∈
              trace ∧
          queried.errcode = 0 ∧
          (PlainResources queried.answer →
            readPlacements (printedBy trace) =
                some (placements queried.answer) ∧
              ∀ node,
                allocationOf queried.answer = .ok node ↔
                  ∃ p ∈ placements queried.answer,
                    p.index = 0 ∧ node = p.allocation)) := by
  rcases
      ResourceClient.produces_main pid progName args trace
        code hRun with
    ⟨hCode, req, hParse, hReported⟩ | hFailed
  · rcases hReported with
      ⟨applied, queried, hApplied, hCode₁, hQueried, hCode₂,
        hPrinted⟩
    refine
      Or.inr
        ⟨hCode, req, applied, queried, hParse, hApplied,
          hCode₁, hQueried, hCode₂, ?_⟩
    intro hPlain
    rw [hPrinted]
    exact
      ⟨readPlacements_printed hPlain,
        allocationOf_iff_placement queried.answer⟩
  · exact Or.inl hFailed

/- Two nodes, and a resource without one between them. -/
def twoNodes : List ResourceInfo :=
  [⟨some ⟨"10.0.0.1".toList, 7000⟩, some "/gpu0".toList,
      [0, 1]⟩,
    ⟨none, none, []⟩,
    ⟨some ⟨"10.0.0.2".toList, 7001⟩, none, []⟩]

/- A controller that reserves these. -/
def twoNodesAnswers : (op : ResourceOp) → ResourceResp op
| .initChannel _ => true
| .applyResource _ => .ok ⟨some ⟨0, []⟩, "t1".toList⟩
| .queryResource _ => .ok ⟨some ⟨0, []⟩, twoNodes⟩
| .log _ => ()
| .print _ => ()

/- The exit code of that run, and what it called. -/
def twoNodesRun : Int × List ResourceEvent :=
  Core.Prog.run
    (fun op trace =>
      (twoNodesAnswers op,
        trace ++ [⟨op, twoNodesAnswers op⟩]))
    (ResourceClient.main clientPid "resource".toList oneDevice)
    []

example :
    printedBy twoNodesRun.2 =
      ("Resource[0]: IP=10.0.0.1, Port=7000, CGroup=/gpu0" ++
        ", CPUCores=0,1\n" ++
        "Resource[2]: IP=10.0.0.2, Port=7001\n").toList := by
  decide +kernel

theorem resource_output_read_twoNodes :
    (twoNodesRun.1 = -1 ∧ printedBy twoNodesRun.2 = []) ∨
      (twoNodesRun.1 = 0 ∧ ∃ req applied queried,
        ResourceClient.parseArguments clientPid
            "resource".toList oneDevice = .ok req ∧
          ⟨.applyResource (ResourceClient.applyRequestOf req),
              .ok applied⟩ ∈ twoNodesRun.2 ∧
          applied.errcode = 0 ∧
          ⟨.queryResource applied.answer, .ok queried⟩ ∈
              twoNodesRun.2 ∧
          queried.errcode = 0 ∧
          (PlainResources queried.answer →
            readPlacements (printedBy twoNodesRun.2) =
                some (placements queried.answer) ∧
              ∀ node,
                allocationOf queried.answer = .ok node ↔
                  ∃ p ∈ placements queried.answer,
                    p.index = 0 ∧ node = p.allocation)) := by
  have hAnswers (op : ResourceOp) :
      AnyReply op (twoNodesAnswers op) :=
    trivial
  rcases
      Core.Prog.finishes_answers twoNodesAnswers hAnswers
        (ResourceClient.main clientPid "resource".toList
          oneDevice)
        [] with
    ⟨trace, hTrace, hRun⟩
  have hSame : twoNodesRun.2 = trace := hTrace
  rw [hSame]
  exact
    resource_output_read clientPid "resource".toList oneDevice
      hRun

end Drex
