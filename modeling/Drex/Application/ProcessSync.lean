import Drex.Core.Barrier
import Drex.Application.WindowLoop

/-
  The processes of the dynamic benchmark and the memory they
  share: a counter that each of them adds to and waits for
  before and after its warm-up and around every window.

  Any number of processes runs.  A section under the mutex
  is one step, and a wait that wakes up looks at the counter
  again.  A process that aborts takes no more steps.

  Key definitions include:
    * `SyncConfig`
    * `SyncSegment`
    * `SyncProcess`
    * `SyncProcess.target?`
    * `SyncProcess.step`
    * `SyncRun`
    * `syncStep`

  Key theorems include:
    * `SyncProcess.step_move`
-/

------------------------------------------------------------
-- Processes
------------------------------------------------------------

namespace Drex

/- The arguments of a process, with targets that are ints. -/
structure SyncConfig where
  loop : LoopConfig
  plain : loop.rechecks = false
  targets_fit : 4 + 4 * loop.windowCount < 2 ^ 31

/- `SharedSyncState`, of which a new segment is zeroed. -/
structure SyncSegment where
  initialized : Bool
  count : Nat
deriving DecidableEq

/- Where a process is in `main`. -/
inductive SyncPhase
| attach
| initialise
| built
| warmup
| warmed
| openReport
| looping
deriving DecidableEq

/-
  A process, whether it waits inside `Sync`, and the locals
  of its loop with its stop flag.
-/
structure SyncProcess where
  phase : SyncPhase
  waiting : Bool
  loop : LoopState

/- A number cast to an `int`. -/
def toInt (n : Int) : Int :=
  n.bmod (2 ^ 32)

/- `start_target` and `stop_target`. -/
def startTarget (window : Nat) : Int :=
  toInt (4 + ((window : Int) - 1) * 4 + 2)

def stopTarget (window : Nat) : Int :=
  toInt (4 + ((window : Int) - 1) * 4 + 4)

namespace SyncProcess

variable (cfg : SyncConfig) (p : SyncProcess)

/- The target of the call of `Sync` that comes next. -/
def target? : Option Int :=
  match p.phase with
  | .built => some 2
  | .warmed => some 4
  | .looping =>
      match p.loop.pc with
      | .opening => some (startTarget p.loop.window)
      | .closing => some (stopTarget p.loop.window)
      | _ => none
  | _ => none

/- What follows a call of `Sync`. -/
def leaveSync : SyncProcess :=
  match p.phase with
  | .built => { p with phase := .warmup, waiting := false }
  | .warmed =>
      { p with phase := .openReport, waiting := false }
  | .looping =>
      match p.loop.pc with
      | .opening =>
          { p with
            waiting := false
            loop := { p.loop with pc := .begin } }
      | .closing =>
          { p with
            waiting := false
            loop := p.loop.nextWindow }
      | _ => p
  | _ => p

/- The loop starts at its reading of the clock. -/
def startLoop (now : Int) : SyncProcess :=
  { p with
    phase := .looping
    loop := { loopStart now with stop := p.loop.stop } }

/-
  `Sync`: the arrival with its look at the counter, and the
  looks after it.  A counter out of range has no step.
-/
def sync
    (segment : SyncSegment)
    (target : Int) :
    Option (SyncSegment × SyncProcess) :=
  if p.waiting then
    if (segment.count : Int) < target then
      some (segment, p)
    else
      some (segment, p.leaveSync)
  else if 2 ^ 31 ≤ segment.count + 1 then
    none
  else if (segment.count + 1 : Int) < target then
    some
      ({ segment with count := segment.count + 1 },
        { p with waiting := true })
  else
    some
      ({ segment with count := segment.count + 1 },
        p.leaveSync)

/- A call of `Sync`, or a step of the loop between two. -/
def advance
    (segment : SyncSegment)
    (now : Int) :
    Option (SyncSegment × SyncProcess) :=
  match p.target? with
  | some target => p.sync segment target
  | none =>
      (p.loop.advance cfg.loop now).map
        (fun loop => (segment, { p with loop := loop }))

/- One step of a process. -/
def step
    (segment : SyncSegment)
    (now : Int) :
    Option (SyncSegment × SyncProcess) :=
  match p.phase with
  | .attach =>
      if segment.initialized then
        some (segment, { p with phase := .built })
      else
        some
          ({ segment with initialized := true },
            { p with phase := .initialise })
  | .initialise =>
      some
        ({ segment with count := 0 },
          { p with phase := .built })
  | .warmup => some (segment, { p with phase := .warmed })
  | .openReport => some (segment, p.startLoop now)
  | _ => p.advance cfg segment now

/- The arrivals that a step throws away. -/
def discards (segment : SyncSegment) : Nat :=
  if p.phase = .initialise then segment.count else 0

end SyncProcess

/-
  The segment and the processes, and how many arrivals were
  thrown away by its initialisation.
-/
structure SyncRun (ι : Type) where
  segment : SyncSegment
  processes : ι → SyncProcess
  lost : Nat

/- A process gets a stop signal, or takes a step. -/
inductive SyncEvent (ι : Type)
| stop (i : ι)
| step (i : ι) (now : Int)

section

variable {ι : Type}

/- The processes before they attach to a segment. -/
def syncStart (segment : SyncSegment) : SyncRun ι :=
  { segment := segment
    processes := fun _ =>
      { phase := .attach
        waiting := false
        loop := loopStart 0 }
    lost := 0 }

variable [DecidableEq ι]

/- One step of one of the processes. -/
def syncStep
    (cfg : ι → SyncConfig)
    (s : SyncRun ι) :
    SyncEvent ι → Option (SyncRun ι)
| .stop i =>
    let p := s.processes i
    some
      { s with
        processes :=
          Function.update s.processes i
            { p with loop := { p.loop with stop := true } } }
| .step i now =>
    ((s.processes i).step (cfg i) s.segment now).map
      (fun (segment, p) =>
        { segment := segment
          processes := Function.update s.processes i p
          lost :=
            s.lost + (s.processes i).discards s.segment })

end

end Drex

------------------------------------------------------------
-- What A Step Does
------------------------------------------------------------

namespace Drex

namespace SyncProcess

/- What a process does in a step. -/
inductive SyncMove
    (cfg : SyncConfig)
    (p : SyncProcess)
    (segment : SyncSegment)
    (now : Int) :
    SyncSegment → SyncProcess → Prop
| attach
    (hPhase : p.phase = .attach)
    (hUsed : segment.initialized = true) :
    SyncMove cfg p segment now segment
      { p with phase := .built }
| claim
    (hPhase : p.phase = .attach)
    (hNew : segment.initialized = false) :
    SyncMove cfg p segment now
      { segment with initialized := true }
      { p with phase := .initialise }
| initialise
    (hPhase : p.phase = .initialise) :
    SyncMove cfg p segment now
      { segment with count := 0 }
      { p with phase := .built }
| warmup
    (hPhase : p.phase = .warmup) :
    SyncMove cfg p segment now segment
      { p with phase := .warmed }
| openReport
    (hPhase : p.phase = .openReport) :
    SyncMove cfg p segment now segment (p.startLoop now)
| sleep
    {target : Int}
    (hTarget : p.target? = some target)
    (hWaits : p.waiting = true)
    (hCount : (segment.count : Int) < target) :
    SyncMove cfg p segment now segment p
| wake
    {target : Int}
    (hTarget : p.target? = some target)
    (hWaits : p.waiting = true)
    (hCount : target ≤ segment.count) :
    SyncMove cfg p segment now segment p.leaveSync
| wait
    {target : Int}
    (hTarget : p.target? = some target)
    (hWaits : p.waiting = false)
    (hCount : (segment.count + 1 : Int) < target) :
    SyncMove cfg p segment now
      { segment with count := segment.count + 1 }
      { p with waiting := true }
| pass
    {target : Int}
    (hTarget : p.target? = some target)
    (hWaits : p.waiting = false)
    (hCount : target ≤ segment.count + 1) :
    SyncMove cfg p segment now
      { segment with count := segment.count + 1 }
      p.leaveSync
| loop
    {loop : LoopState}
    (hPhase : p.phase = .looping)
    (hFree : p.target? = none)
    (hStep : p.loop.advance cfg.loop now = some loop) :
    SyncMove cfg p segment now segment
      { p with loop := loop }

theorem sync_move
    {cfg : SyncConfig}
    {p p' : SyncProcess}
    {segment segment' : SyncSegment}
    {now target : Int}
    (hTarget : p.target? = some target)
    (h : p.sync segment target = some (segment', p')) :
    SyncMove cfg p segment now segment' p' := by
  unfold sync at h
  split at h
  case isTrue hWaits =>
    split at h
    case isTrue hCount =>
      cases h
      exact .sleep hTarget hWaits hCount
    case isFalse hCount =>
      cases h
      exact .wake hTarget hWaits (Int.not_lt.mp hCount)
  case isFalse hWaits =>
    have hFree := Bool.eq_false_of_not_eq_true hWaits
    split at h
    · cases h
    · split at h
      case isTrue hCount =>
        cases h
        exact .wait hTarget hFree hCount
      case isFalse hCount =>
        cases h
        exact .pass hTarget hFree (Int.not_lt.mp hCount)

theorem advance_move
    {cfg : SyncConfig}
    {p p' : SyncProcess}
    {segment segment' : SyncSegment}
    {now : Int}
    (hPhase : p.phase = .looping ∨ p.target? ≠ none)
    (h : p.advance cfg segment now = some (segment', p')) :
    SyncMove cfg p segment now segment' p' := by
  unfold advance at h
  cases hTarget : p.target? with
  | some target =>
      rw [hTarget] at h
      exact sync_move hTarget h
  | none =>
      rw [hTarget] at h
      rcases Option.map_eq_some_iff.mp h with
        ⟨loop, hLoop, hEq⟩
      cases hEq
      have hLooping :=
        hPhase.resolve_right (fun hNot => hNot hTarget)
      exact .loop hLooping hTarget hLoop

theorem step_move
    {cfg : SyncConfig}
    {p p' : SyncProcess}
    {segment segment' : SyncSegment}
    {now : Int}
    (h : p.step cfg segment now = some (segment', p')) :
    SyncMove cfg p segment now segment' p' := by
  unfold step at h
  split at h
  case h_1 hPhase =>
    split at h
    case isTrue hUsed =>
      cases h
      exact .attach hPhase hUsed
    case isFalse hNew =>
      cases h
      exact .claim hPhase (Bool.eq_false_of_not_eq_true hNew)
  case h_2 hPhase =>
    cases h
    exact .initialise hPhase
  case h_3 hPhase =>
    cases h
    exact .warmup hPhase
  case h_4 hPhase =>
    cases h
    exact .openReport hPhase
  case h_5 hAttach hInitialise hWarmup hOpen =>
    refine advance_move ?_ h
    cases hPhase : p.phase with
    | attach => exact absurd hPhase hAttach
    | initialise => exact absurd hPhase hInitialise
    | warmup => exact absurd hPhase hWarmup
    | openReport => exact absurd hPhase hOpen
    | looping => exact Or.inl rfl
    | built | warmed =>
        right
        rw [target?, hPhase]
        exact Option.some_ne_none _

end SyncProcess

end Drex
