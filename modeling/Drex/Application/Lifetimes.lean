import Drex.Core.Ledger
import Drex.Filesystem.Path
import Drex.Application.Doca

/-
  The objects of a DPU process: `main`, the resources that
  it allocates and the events of `kernel_launch`.

  What `kernel_launch` does between its events and their end
  is one operation here.  A call that fails hands out no
  object.  What a failed call prints is left out.

  Key definitions include:
    * `DpaObject`
    * `DpaOp`
    * `createSyncEvent`
    * `openDpaDevice`
    * `allocateDpaResources`
    * `launchProcess`
    * `dpaMain`

  Key theorems include:
    * `after_createSyncEvent`
    * `after_allocateDpaResources`
    * `after_launchProcess`
    * `lifetimes`
-/

------------------------------------------------------------
-- Operations
------------------------------------------------------------

namespace Drex

open Drex.Core

/- What a process of the DPU has to give back. -/
inductive DpaObject
| argp
| list (id : Nat)
| device (id : Nat)
| dpa (id : Nat)
| event (id : Nat)
deriving DecidableEq

/- The calls that set up a new event. -/
inductive EventStep
| publisher (location : DpaObject)
| subscriber (location : DpaObject)
| start
deriving DecidableEq

/- The calls into the library, and the kernels. -/
inductive DpaOp
| createBackend
| createSdkBackend
| setSdkLevel
| argpInit
| registerParams
| argpStart
| argpDestroy
| createList
| destroyList (list : Nat)
| isSupported (list index : Nat)
| ibdevName (list index : Nat)
| openDevice (list index : Nat)
| closeDevice (device : Nat)
| createDpa (device : Nat)
| setApp (dpa : Nat)
| startDpa (dpa : Nat)
| destroyDpa (dpa : Nat)
| createEvent
| setUpEvent (event : Nat) (step : EventStep)
| destroyEvent (event : Nat)
| runKernels (device dpa waitEvent compEvent : Nat)
deriving DecidableEq

/- The answer to each operation. -/
@[reducible] def DpaResp : DpaOp → Type
-- An error, or the list and how long it is.
| .createList => Except DocaError (Nat × Nat)
| .ibdevName _ _ => Except DocaError Str
| .openDevice _ _ => Except DocaError Nat
| .createDpa _ => Except DocaError Nat
| .createEvent => Except DocaError Nat
| _ => DocaError

/- A function of the process. -/
abbrev DpaProg :=
  Core.Prog DpaOp DpaResp

abbrev dpaPerform (op : DpaOp) : DpaProg (DpaResp op) :=
  Core.Prog.perform op

/- `DOCA_ERROR_PROPAGATE`. -/
def propagate (result next : DocaError) : DocaError :=
  if result = .success then next else result

/-
  The name that stands for any device, and the result where
  there is none.
-/
structure DpaConfig where
  defaultName : Str
  notFound : DocaError
  notFound_ne : notFound ≠ .success

end Drex

------------------------------------------------------------
-- Sync Events
------------------------------------------------------------

namespace Drex

/- The calls of a helper after the creation, in order. -/
def setUpSteps (event : Nat) : List EventStep → DpaProg DocaError
| [] => return .success
| step :: steps => do
    let result ← dpaPerform (.setUpEvent event step)
    if result ≠ .success then
      let destroyed ← dpaPerform (.destroyEvent event)
      return propagate result destroyed
    else
      setUpSteps event steps

/-
  What the helpers that create an event have in common.  The
  pointer is set as soon as the event is created.
-/
def createSyncEvent
    (steps : List EventStep) :
    DpaProg (DocaError × Option Nat) := do
  let created ← dpaPerform .createEvent
  match created with
  | .error result => return (result, none)
  | .ok event =>
      let result ← setUpSteps event steps
      return (result, some event)

/- `create_doca_dpa_wait_sync_event`. -/
def createDocaDpaWaitSyncEvent
    (dpa device : Nat) :
    DpaProg (DocaError × Option Nat) :=
  createSyncEvent
    [.publisher (.device device), .subscriber (.dpa dpa),
      .start]

/- `create_doca_dpa_completion_sync_event`, without a handle. -/
def createDocaDpaCompletionSyncEvent
    (dpa device : Nat) :
    DpaProg (DocaError × Option Nat) :=
  createSyncEvent
    [.publisher (.dpa dpa), .subscriber (.device device),
      .start]

/- An event whose pointer is set is destroyed. -/
def destroySyncEvent : Option Nat → DpaProg Unit
| none => return ()
| some event => do
    let _ ← dpaPerform (.destroyEvent event)
    return ()

end Drex

------------------------------------------------------------
-- Resources
------------------------------------------------------------

namespace Drex

/-
  The loop of `open_dpa_device` over the devices: none of
  them was one to open, or one was tried.
-/
def scanDevices
    (cfg : DpaConfig)
    (deviceName : Str)
    (list : Nat) :
    List Nat → DpaProg (Option (Except DocaError Nat))
| [] => return none
| index :: rest => do
    let supported ← dpaPerform (.isSupported list index)
    if supported ≠ .success then
      scanDevices cfg deviceName list rest
    else
      let named ← dpaPerform (.ibdevName list index)
      match named with
      | .error _ => scanDevices cfg deviceName list rest
      | .ok name =>
          if deviceName ≠ cfg.defaultName ∧
              deviceName ≠ name then
            scanDevices cfg deviceName list rest
          else
            let opened ← dpaPerform (.openDevice list index)
            return some opened

/- `open_dpa_device`. -/
def openDpaDevice
    (cfg : DpaConfig)
    (deviceName : Str) :
    DpaProg (Except DocaError Nat) := do
  let created ← dpaPerform .createList
  match created with
  | .error result => return .error result
  | .ok (list, count) =>
      let found ←
        scanDevices cfg deviceName list (List.range count)
      let _ ← dpaPerform (.destroyList list)
      match found with
      | none => return .error cfg.notFound
      | some opened => return opened

/- `allocate_dpa_resources`. -/
def allocateDpaResources
    (cfg : DpaConfig)
    (deviceName : Str) :
    DpaProg (Except DocaError (Nat × Nat)) := do
  let opened ← openDpaDevice cfg deviceName
  match opened with
  | .error result => return .error result
  | .ok device =>
      let created ← dpaPerform (.createDpa device)
      match created with
      | .error result =>
          let _ ← dpaPerform (.closeDevice device)
          return .error result
      | .ok dpa =>
          let result ← dpaPerform (.setApp dpa)
          if result ≠ .success then
            let _ ← dpaPerform (.destroyDpa dpa)
            let _ ← dpaPerform (.closeDevice device)
            return .error result
          else
            let result ← dpaPerform (.startDpa dpa)
            if result ≠ .success then
              let _ ← dpaPerform (.destroyDpa dpa)
              let _ ← dpaPerform (.closeDevice device)
              return .error result
            else
              return .ok (device, dpa)

/- `destroy_dpa_resources`. -/
def destroyDpaResources
    (device dpa : Nat) :
    DpaProg DocaError := do
  let first ← dpaPerform (.destroyDpa dpa)
  let second ← dpaPerform (.closeDevice device)
  return propagate (propagate .success first) second

end Drex

------------------------------------------------------------
-- The Process
------------------------------------------------------------

namespace Drex

/- The events of `kernel_launch`, and what is between. -/
def launchProcess
    (device dpa : Nat) :
    DpaProg DocaError := do
  let (result, waitEvent) ←
    createDocaDpaWaitSyncEvent dpa device
  match result, waitEvent with
  | .success, some wait =>
      let (result, compEvent) ←
        createDocaDpaCompletionSyncEvent dpa device
      match result, compEvent with
      | .success, some comp =>
          let result ←
            dpaPerform (.runKernels device dpa wait comp)
          destroySyncEvent compEvent
          destroySyncEvent waitEvent
          return result
      | result, compEvent =>
          destroySyncEvent compEvent
          destroySyncEvent waitEvent
          return result
  | result, waitEvent =>
      destroySyncEvent waitEvent
      return result

/- The end of `main` after its resources were allocated. -/
def runSample
    (device dpa : Nat) :
    DpaProg Bool := do
  let launched ← launchProcess device dpa
  let destroyed ← destroyDpaResources device dpa
  return decide (launched = .success ∧ destroyed = .success)

/-
  `main`, which returns whether it exits with success, with
  the name that its arguments leave in the configuration.
-/
def dpaMain
    (cfg : DpaConfig)
    (deviceName : Str) :
    DpaProg Bool := do
  let result ← dpaPerform .createBackend
  if result ≠ .success then
    return false
  else
    let result ← dpaPerform .createSdkBackend
    if result ≠ .success then
      return false
    else
      let result ← dpaPerform .setSdkLevel
      if result ≠ .success then
        return false
      else
        let result ← dpaPerform .argpInit
        if result ≠ .success then
          return false
        else
          let result ← dpaPerform .registerParams
          if result ≠ .success then
            let _ ← dpaPerform .argpDestroy
            return false
          else
            let result ← dpaPerform .argpStart
            if result ≠ .success then
              let _ ← dpaPerform .argpDestroy
              return false
            else
              let allocated ←
                allocateDpaResources cfg deviceName
              match allocated with
              | .error _ =>
                  let _ ← dpaPerform .argpDestroy
                  return false
              | .ok (device, dpa) =>
                  let done ← runSample device dpa
                  let _ ← dpaPerform .argpDestroy
                  return done

end Drex

------------------------------------------------------------
-- Objects
------------------------------------------------------------

namespace Drex

open Drex.Core

/- A set-up call failed, or the kernels ran with success. -/
inductive DpaNote
| setUpFailed
| ran
deriving DecidableEq

/- The objects that a call names. -/
def EventStep.uses : EventStep → List DpaObject
| .publisher location => [location]
| .subscriber location => [location]
| .start => []

def DpaOp.uses : DpaOp → List DpaObject
| .registerParams => [.argp]
| .argpStart => [.argp]
| .argpDestroy => [.argp]
| .destroyList list => [.list list]
| .isSupported list _ => [.list list]
| .ibdevName list _ => [.list list]
| .openDevice list _ => [.list list]
| .closeDevice device => [.device device]
| .createDpa device => [.device device]
| .setApp dpa => [.dpa dpa]
| .startDpa dpa => [.dpa dpa]
| .destroyDpa dpa => [.dpa dpa]
| .setUpEvent event step => .event event :: step.uses
| .destroyEvent event => [.event event]
| .runKernels device dpa waitEvent compEvent =>
    [.device device, .dpa dpa, .event waitEvent,
      .event compEvent]
| _ => []

def DpaOp.releases : DpaOp → Option DpaObject
| .argpDestroy => some .argp
| .destroyList list => some (.list list)
| .closeDevice device => some (.device device)
| .destroyDpa dpa => some (.dpa dpa)
| .destroyEvent event => some (.event event)
| _ => none

/- An error is no object. -/
def acquired
    {α : Type}
    (object : α → DpaObject) :
    Except DocaError α → Option DpaObject
| .ok a => some (object a)
| .error _ => none

def DpaOp.acquires : (op : DpaOp) → DpaResp op → Option DpaObject
| .argpInit, r => if r = .success then some .argp else none
| .createList, r => acquired (fun made => .list made.1) r
| .openDevice _ _, r => acquired .device r
| .createDpa _, r => acquired .dpa r
| .createEvent, r => acquired .event r
| _, _ => none

def DpaOp.notes : (op : DpaOp) → DpaResp op → Option DpaNote
| .setUpEvent _ _, r =>
    if r = .success then none else some .setUpFailed
| .runKernels _ _ _ _, r =>
    if r = .success then some .ran else none
| _, _ => none

/- An error that hands something out is no success. -/
def DpaOp.allowed : (op : DpaOp) → DpaResp op → Prop
| .createList, r => r ≠ .error .success
| .openDevice _ _, r => r ≠ .error .success
| .createDpa _, r => r ≠ .error .success
| .createEvent, r => r ≠ .error .success
| _, _ => True

/- The process and its objects. -/
def dpaInterface : Interface DpaOp DpaResp DpaObject DpaNote :=
  { uses := DpaOp.uses
    releases := DpaOp.releases
    acquires := DpaOp.acquires
    notes := DpaOp.notes
    allowed := DpaOp.allowed }

abbrev DpaLedger :=
  Ledger DpaObject DpaNote

/- What holds after a function, whatever fails in it. -/
abbrev DpaProg.After
    {α : Type}
    (p : DpaProg α)
    (Q : α → DpaLedger → Prop)
    (g : DpaLedger) : Prop :=
  Prog.wp dpaInterface.answers (fun _ _ => True) p Q g

end Drex

------------------------------------------------------------
-- Events
------------------------------------------------------------

namespace Drex

open Drex.Core

theorem propagate_ne
    {result next : DocaError}
    (h : result ≠ .success) :
    propagate result next ≠ .success := by
  unfold propagate
  rw [if_neg h]
  exact h

/- A failure takes the event back, and is noted. -/
theorem after_setUpSteps
    {event : Nat}
    {steps : List EventStep}
    {Q : DocaError → DpaLedger → Prop}
    {g : DpaLedger}
    {live : List DpaObject}
    (hLive : g.live = .event event :: live)
    (hFresh : .event event ∉ live)
    (hUses : ∀ step ∈ steps, ∀ x ∈ step.uses, x ∈ g.live)
    (hDone : Q .success g)
    (hLate :
      ∀ r, r ≠ .success →
        Q r
          { live := live
            sound := g.sound
            noted := .setUpFailed :: g.noted }) :
    DpaProg.After (setUpSteps event steps) Q g := by
  induction steps with
  | nil => exact hDone
  | cons step steps ih =>
      have hHere :
          ∀ x ∈ dpaInterface.uses (.setUpEvent event step),
            x ∈ g.live := by
        intro x hMem
        rcases List.mem_cons.mp hMem with rfl | hStep
        · rw [hLive]
          exact List.mem_cons_self
        · exact hUses step List.mem_cons_self x hStep
      refine wp_use hHere rfl (fun _ => rfl) fun r _ => ?_
      by_cases hOk : r = .success
      · subst hOk
        exact
          ih fun other hMem =>
            hUses other (List.mem_cons_of_mem step hMem)
      · rw [if_pos hOk]
        have hNoted :
            dpaInterface.notes (.setUpEvent event step) r =
              some .setUpFailed :=
          if_neg hOk
        rw [hNoted]
        have hMem : DpaObject.event event ∈ g.live := by
          rw [hLive]
          exact List.mem_cons_self
        have hRest :
            g.live.filter
                (fun y =>
                  decide
                    (some (DpaObject.event event) ≠ some y)) =
              live := by
          rw [hLive]
          exact filter_head hFresh
        refine
          wp_release hMem hRest rfl rfl
            (fun _ => rfl) (fun _ => rfl) fun destroyed _ => ?_
        exact hLate _ (propagate_ne hOk)

/-
  A helper leaves no event, or the event, or the pointer to
  an event that it destroyed again.
-/
theorem after_createSyncEvent
    {steps : List EventStep}
    {Q : DocaError × Option Nat → DpaLedger → Prop}
    {g : DpaLedger}
    (hUses : ∀ step ∈ steps, ∀ x ∈ step.uses, x ∈ g.live)
    (hNone : ∀ r, r ≠ .success → Q (r, none) g)
    (hLate :
      ∀ r event, r ≠ .success → .event event ∉ g.live →
        Q (r, some event)
          { g with noted := .setUpFailed :: g.noted })
    (hDone :
      ∀ event, .event event ∉ g.live →
        Q (.success, some event)
          { g with live := .event event :: g.live }) :
    DpaProg.After (createSyncEvent steps) Q g := by
  refine
    wp_acquire (fun _ hMem => by cases hMem) rfl (fun _ => rfl)
      fun r hAllowed hFresh => ?_
  cases r with
  | error result =>
      have hFailed : result ≠ .success :=
        fun hOk => hAllowed (congrArg Except.error hOk)
      exact hNone result hFailed
  | ok event =>
      have hNew : DpaObject.event event ∉ g.live :=
        hFresh _ rfl
      refine (Prog.wp_bind _ _ _ _ _ _).mpr ?_
      refine after_setUpSteps rfl hNew ?_ ?_ ?_
      · intro step hStep x hMem
        exact List.mem_cons_of_mem _ (hUses step hStep x hMem)
      · exact hDone event hNew
      · intro r hFailed
        exact hLate r event hFailed hNew

end Drex

------------------------------------------------------------
-- Devices
------------------------------------------------------------

namespace Drex

open Drex.Core

/- At most one device is open after the loop. -/
theorem after_scanDevices
    {cfg : DpaConfig}
    {deviceName : Str}
    {list : Nat}
    {indices : List Nat}
    {Q : Option (Except DocaError Nat) → DpaLedger → Prop}
    {g : DpaLedger}
    (hList : .list list ∈ g.live)
    (hNone : Q none g)
    (hFailed :
      ∀ r, r ≠ .success → Q (some (.error r)) g)
    (hDone :
      ∀ device, .device device ∉ g.live →
        Q (some (.ok device))
          { g with live := .device device :: g.live }) :
    DpaProg.After
      (scanDevices cfg deviceName list indices) Q g := by
  have hHere : ∀ x ∈ [DpaObject.list list], x ∈ g.live := by
    intro x hMem
    rw [List.mem_singleton.mp hMem]
    exact hList
  induction indices with
  | nil => exact hNone
  | cons index rest ih =>
      refine wp_use hHere rfl (fun _ => rfl) fun r _ => ?_
      refine Prog.wp_ite (fun _ => ih) fun _ => ?_
      refine wp_use hHere rfl (fun _ => rfl) fun r _ => ?_
      cases r with
      | error result => exact ih
      | ok name =>
          refine Prog.wp_ite (fun _ => ih) fun _ => ?_
          refine
            wp_acquire hHere rfl (fun _ => rfl)
              fun opened hAllowed hFresh => ?_
          cases opened with
          | error result =>
              refine hFailed result fun hOk => hAllowed ?_
              exact congrArg Except.error hOk
          | ok device => exact hDone device (hFresh _ rfl)

/- The list of devices is gone again on every path. -/
theorem after_openDpaDevice
    {cfg : DpaConfig}
    {deviceName : Str}
    {Q : Except DocaError Nat → DpaLedger → Prop}
    {g : DpaLedger}
    (hFailed : ∀ r, r ≠ .success → Q (.error r) g)
    (hDone :
      ∀ device, .device device ∉ g.live →
        Q (.ok device)
          { g with live := .device device :: g.live }) :
    DpaProg.After (openDpaDevice cfg deviceName) Q g := by
  refine
    wp_acquire (fun _ hMem => by cases hMem) rfl (fun _ => rfl)
      fun created hAllowed hFresh => ?_
  cases created with
  | error result =>
      refine hFailed result fun hOk => hAllowed ?_
      exact congrArg Except.error hOk
  | ok made =>
      rcases made with ⟨list, count⟩
      have hNew : DpaObject.list list ∉ g.live :=
        hFresh _ rfl
      have hHead :
          DpaObject.list list ∈
            DpaObject.list list :: g.live :=
        List.mem_cons_self
      refine (Prog.wp_bind _ _ _ _ _ _).mpr ?_
      refine after_scanDevices hHead ?_ ?_ ?_
      · refine
          wp_release hHead (filter_head hNew) rfl rfl
            (fun _ => rfl) (fun _ => rfl) fun _ _ => ?_
        exact hFailed cfg.notFound cfg.notFound_ne
      · intro r hOk
        refine
          wp_release hHead (filter_head hNew) rfl rfl
            (fun _ => rfl) (fun _ => rfl) fun _ _ => ?_
        exact hFailed r hOk
      · intro device hOther
        have hNe : DpaObject.device device ≠ .list list :=
          fun hEq => by cases hEq
        refine
          wp_release (List.mem_cons_of_mem _ hHead)
            (filter_second hNe hNew) rfl rfl
            (fun _ => rfl) (fun _ => rfl) fun _ _ => ?_
        refine hDone device fun hMem => hOther ?_
        exact List.mem_cons_of_mem _ hMem

end Drex

------------------------------------------------------------
-- Allocation
------------------------------------------------------------

namespace Drex

open Drex.Core

variable {α : Type} {Q : α → DpaLedger → Prop}

/- The context and its device go in this order. -/
theorem after_destroyed
    {device dpa : Nat}
    {g : DpaLedger}
    {live : List DpaObject}
    {f : DocaError → DocaError → DpaProg α}
    (hLive : g.live = .dpa dpa :: .device device :: live)
    (hDpa : .dpa dpa ∉ live)
    (hDevice : .device device ∉ live)
    (h :
      ∀ first second,
        DpaProg.After (f first second) Q
          { g with live := live }) :
    DpaProg.After
      (dpaPerform (.destroyDpa dpa) >>= fun first =>
        dpaPerform (.closeDevice device) >>= f first) Q g := by
  have hMem : DpaObject.dpa dpa ∈ g.live := by
    rw [hLive]
    exact List.mem_cons_self
  have hOther :
      DpaObject.dpa dpa ∉ .device device :: live := by
    rw [List.mem_cons, not_or]
    exact ⟨fun hEq => (by cases hEq), hDpa⟩
  have hRest :
      g.live.filter
          (fun y =>
            decide (some (DpaObject.dpa dpa) ≠ some y)) =
        .device device :: live := by
    rw [hLive]
    exact filter_head hOther
  refine
    wp_release hMem hRest rfl rfl (fun _ => rfl) (fun _ => rfl)
      fun first _ => ?_
  exact
    wp_release List.mem_cons_self (filter_head hDevice) rfl rfl
      (fun _ => rfl) (fun _ => rfl) fun second _ =>
        h first second

/- All that is allocated, or nothing. -/
theorem after_allocateDpaResources
    {cfg : DpaConfig}
    {deviceName : Str}
    {Q : Except DocaError (Nat × Nat) → DpaLedger → Prop}
    {g : DpaLedger}
    (hFailed : ∀ r, r ≠ .success → Q (.error r) g)
    (hDone :
      ∀ device dpa,
        .device device ∉ g.live → .dpa dpa ∉ g.live →
          Q (.ok (device, dpa))
            { g with
              live :=
                .dpa dpa :: .device device :: g.live }) :
    DpaProg.After
      (allocateDpaResources cfg deviceName) Q g := by
  refine (Prog.wp_bind _ _ _ _ _ _).mpr ?_
  refine after_openDpaDevice hFailed fun device hDevice => ?_
  have hHead :
      ∀ x ∈ [DpaObject.device device],
        x ∈ DpaObject.device device :: g.live := by
    intro x hMem
    rw [List.mem_singleton.mp hMem]
    exact List.mem_cons_self
  refine
    wp_acquire hHead rfl (fun _ => rfl)
      fun created hAllowed hFresh => ?_
  cases created with
  | error result =>
      have hNe : result ≠ .success :=
        fun hOk => hAllowed (congrArg Except.error hOk)
      exact
        wp_release List.mem_cons_self (filter_head hDevice) rfl
          rfl (fun _ => rfl) (fun _ => rfl) fun _ _ =>
            hFailed result hNe
  | ok dpa =>
      have hNew :
          DpaObject.dpa dpa ∉
            DpaObject.device device :: g.live :=
        hFresh _ rfl
      have hDpa : DpaObject.dpa dpa ∉ g.live :=
        fun hMem => hNew (List.mem_cons_of_mem _ hMem)
      have hUse :
          ∀ x ∈ [DpaObject.dpa dpa],
            x ∈ DpaObject.dpa dpa ::
              DpaObject.device device :: g.live := by
        intro x hMem
        rw [List.mem_singleton.mp hMem]
        exact List.mem_cons_self
      -- Whichever of the two calls fails, both are undone.
      refine wp_use hUse rfl (fun _ => rfl) fun r _ => ?_
      refine Prog.wp_ite (fun hOk => ?_) fun _ => ?_
      · exact
          after_destroyed rfl hDpa hDevice fun _ _ =>
            hFailed r hOk
      · refine wp_use hUse rfl (fun _ => rfl) fun r _ => ?_
        refine Prog.wp_ite (fun hOk => ?_) fun _ => ?_
        · exact
            after_destroyed rfl hDpa hDevice fun _ _ =>
              hFailed r hOk
        · exact hDone device dpa hDevice hDpa

end Drex

------------------------------------------------------------
-- Launches
------------------------------------------------------------

namespace Drex

open Drex.Core

variable {α : Type} {Q : α → DpaLedger → Prop}

/- An event that is there is destroyed. -/
theorem after_destroySyncEvent
    {event : Nat}
    {g : DpaLedger}
    {live : List DpaObject}
    {f : Unit → DpaProg α}
    (hLive : g.live = .event event :: live)
    (hFresh : .event event ∉ live)
    (h : DpaProg.After (f ()) Q { g with live := live }) :
    DpaProg.After
      (destroySyncEvent (some event) >>= f) Q g := by
  have hMem : DpaObject.event event ∈ g.live := by
    rw [hLive]
    exact List.mem_cons_self
  have hRest :
      g.live.filter
          (fun y =>
            decide (some (DpaObject.event event) ≠ some y)) =
        live := by
    rw [hLive]
    exact filter_head hFresh
  exact
    wp_release hMem hRest rfl rfl (fun _ => rfl)
      (fun _ => rfl) fun _ _ => h

/- An event that its helper destroyed is destroyed again. -/
theorem after_destroySyncEvent_again
    {event : Nat}
    {g : DpaLedger}
    {f : Unit → DpaProg α}
    (hGone : .event event ∉ g.live)
    (h : DpaProg.After (f ()) Q { g with sound := false }) :
    DpaProg.After
      (destroySyncEvent (some event) >>= f) Q g :=
  wp_release_again hGone rfl rfl (fun _ => rfl)
    (fun _ => rfl) fun _ _ => h

/- What the kernels leave: nothing but a note. -/
def DpaLedger.ranWith
    (g : DpaLedger)
    (r : DocaError) :
    DpaLedger :=
  { g with
    noted :=
      (if r = .success then [.ran] else []) ++ g.noted }

/-
  No event is left.  An event is destroyed twice exactly
  where one of its set-up calls fails.
-/
theorem after_launchProcess
    {device dpa : Nat}
    {Q : DocaError → DpaLedger → Prop}
    {g : DpaLedger}
    (hDevice : .device device ∈ g.live)
    (hDpa : .dpa dpa ∈ g.live)
    (hNone : ∀ r, r ≠ .success → Q r g)
    (hLate :
      ∀ r, r ≠ .success →
        Q r
          { g with
            sound := false
            noted := .setUpFailed :: g.noted })
    (hRan : ∀ r, Q r (g.ranWith r)) :
    DpaProg.After (launchProcess device dpa) Q g := by
  have hSteps :
      ∀ live : List DpaObject, (∀ x ∈ g.live, x ∈ live) →
        ∀ first second : DpaObject, first ∈ g.live →
          second ∈ g.live →
            ∀ step ∈
              [EventStep.publisher first,
                .subscriber second, .start],
              ∀ x ∈ step.uses, x ∈ live := by
    intro live hSub first second hFirst hSecond step hStep x
      hMem
    simp only [List.mem_cons, List.not_mem_nil, or_false]
      at hStep
    rcases hStep with rfl | rfl | rfl
    · rw [List.mem_singleton.mp hMem]
      exact hSub _ hFirst
    · rw [List.mem_singleton.mp hMem]
      exact hSub _ hSecond
    · cases hMem
  refine (Prog.wp_bind _ _ _ _ _ _).mpr ?_
  refine
    after_createSyncEvent
      (hSteps _ (fun _ h => h) _ _ hDevice hDpa) ?_ ?_ ?_
  · intro r hOk
    dsimp only
    split
    · contradiction
    · exact hNone _ hOk
  · intro r event hOk hGone
    dsimp only
    split
    · contradiction
    · exact after_destroySyncEvent_again hGone (hLate _ hOk)
  · intro wait hWait
    have hSub :
        ∀ x ∈ g.live, x ∈ DpaObject.event wait :: g.live :=
      fun _ h => List.mem_cons_of_mem _ h
    refine (Prog.wp_bind _ _ _ _ _ _).mpr ?_
    refine
      after_createSyncEvent
        (hSteps _ hSub _ _ hDpa hDevice) ?_ ?_ ?_
    · intro r hOk
      dsimp only
      split
      · contradiction
      · exact after_destroySyncEvent rfl hWait (hNone _ hOk)
    · intro r event hOk hGone
      dsimp only
      split
      · contradiction
      · refine after_destroySyncEvent_again hGone ?_
        exact after_destroySyncEvent rfl hWait (hLate _ hOk)
    · intro comp hComp
      have hUses :
          ∀ x ∈
              [DpaObject.device device, .dpa dpa,
                .event wait, .event comp],
            x ∈ DpaObject.event comp ::
              DpaObject.event wait :: g.live := by
        simp [hDevice, hDpa]
      refine wp_use hUses rfl (fun _ => rfl) fun r _ => ?_
      refine after_destroySyncEvent rfl hComp ?_
      refine after_destroySyncEvent rfl hWait ?_
      have hNotes :
          (dpaInterface.notes
              (.runKernels device dpa wait comp) r).toList =
            if r = .success then [.ran] else [] := by
        unfold dpaInterface DpaOp.notes
        by_cases hOk : r = .success
        · simp [hOk]
        · simp [hOk]
      have hLeft := hRan r
      unfold DpaLedger.ranWith at hLeft
      rw [← hNotes] at hLeft
      exact hLeft

end Drex

------------------------------------------------------------
-- Whole Processes
------------------------------------------------------------

namespace Drex

open Drex.Core

/-
  What a process leaves: nothing, unsoundly only after a
  set-up call that failed, and with success only where the
  kernels ran with success.
-/
structure Settled
    (exit : Bool)
    (g : DpaLedger) : Prop where
  empty : g.live = []
  sound : g.sound = true ↔ .setUpFailed ∉ g.noted
  ran :
    exit = true → .ran ∈ g.noted ∧ .setUpFailed ∉ g.noted

/- A process at its start. -/
def DpaLedger.start : DpaLedger :=
  { live := [], sound := true, noted := [] }

theorem settled_start :
    Settled false .start :=
  { empty := rfl
    sound := by simp [DpaLedger.start]
    ran := fun hExit => by cases hExit }

/- A set-up call that failed is a failure of the process. -/
theorem settled_late
    {g : DpaLedger}
    (hLive : g.live = []) :
    Settled false
      { g with
        sound := false
        noted := .setUpFailed :: g.noted } :=
  { empty := hLive
    sound := by simp
    ran := fun hExit => by cases hExit }

/- Whatever is destroyed afterwards, and whether it fails. -/
theorem settled_ranWith
    {r : DocaError}
    {exit : Bool}
    (hExit : exit = true → r = .success) :
    Settled exit (DpaLedger.start.ranWith r) := by
  have hNoted :
      .setUpFailed ∉ (DpaLedger.start.ranWith r).noted := by
    unfold DpaLedger.ranWith DpaLedger.start
    by_cases hOk : r = .success
    · simp [hOk]
    · simp [hOk]
  refine
    { empty := rfl
      sound := iff_of_true rfl hNoted
      ran := fun hDone => ⟨?_, hNoted⟩ }
  simp [DpaLedger.ranWith, hExit hDone]

/- The last call of a process that parsed its arguments. -/
theorem after_argpDestroy
    {exit : Bool}
    {g : DpaLedger}
    (hLive : g.live = [.argp])
    (h : Settled exit { g with live := [] }) :
    DpaProg.After
      (dpaPerform .argpDestroy >>= fun _ => return exit)
      Settled g := by
  have hMem : DpaObject.argp ∈ g.live := by
    rw [hLive]
    exact List.mem_cons_self
  have hRest :
      g.live.filter
          (fun y =>
            decide (some DpaObject.argp ≠ some y)) = [] := by
    rw [hLive]
    rfl
  exact
    wp_release hMem hRest rfl rfl (fun _ => rfl)
      (fun _ => rfl) fun _ _ => h

/- What follows the launch, from the ledger that it leaves. -/
theorem after_cleanUp
    {device dpa : Nat}
    {launched : DocaError}
    {g : DpaLedger}
    (hLive : g.live = [.dpa dpa, .device device, .argp])
    (h :
      ∀ exit, (exit = true → launched = .success) →
        Settled exit { g with live := [] }) :
    DpaProg.After
      (do
        let destroyed ← destroyDpaResources device dpa
        let _ ← dpaPerform .argpDestroy
        return decide
          (launched = .success ∧ destroyed = .success))
      Settled g := by
  unfold destroyDpaResources
  simp only [bind_assoc, pure_bind]
  refine
    after_destroyed hLive (by simp) (by simp)
      fun first second => ?_
  refine after_argpDestroy rfl (h _ fun hExit => ?_)
  exact (of_decide_eq_true hExit).1

/- The resources that were allocated are destroyed. -/
theorem after_runSample
    {device dpa : Nat} :
    DpaProg.After
      (do
        let done ← runSample device dpa
        let _ ← dpaPerform .argpDestroy
        return done)
      Settled
      { DpaLedger.start with
        live := [.dpa dpa, .device device, .argp] } := by
  unfold runSample
  simp only [bind_assoc, pure_bind]
  refine (Prog.wp_bind _ _ _ _ _ _).mpr ?_
  refine
    after_launchProcess (by simp) (by simp) ?_ ?_ ?_
  · intro r hOk
    refine after_cleanUp rfl fun exit hExit => ?_
    have hFailed : exit = false :=
      Bool.eq_false_iff.mpr fun h => hOk (hExit h)
    rw [hFailed]
    exact settled_start
  · intro r hOk
    refine after_cleanUp rfl fun exit hExit => ?_
    have hFailed : exit = false :=
      Bool.eq_false_iff.mpr fun h => hOk (hExit h)
    rw [hFailed]
    exact settled_late (g := DpaLedger.start) rfl
  · intro r
    refine after_cleanUp rfl fun exit hExit => ?_
    exact settled_ranWith hExit

/- Every path of the process settles what it was given. -/
theorem after_dpaMain
    {cfg : DpaConfig}
    {deviceName : Str} :
    DpaProg.After (dpaMain cfg deviceName) Settled .start := by
  have hNothing :
      ∀ x ∈ ([] : List DpaObject), x ∈ DpaLedger.start.live :=
    fun _ hMem => by cases hMem
  refine wp_use hNothing rfl (fun _ => rfl) fun r _ => ?_
  refine Prog.wp_ite (fun _ => settled_start) fun _ => ?_
  refine wp_use hNothing rfl (fun _ => rfl) fun r _ => ?_
  refine Prog.wp_ite (fun _ => settled_start) fun _ => ?_
  refine wp_use hNothing rfl (fun _ => rfl) fun r _ => ?_
  refine Prog.wp_ite (fun _ => settled_start) fun _ => ?_
  refine
    wp_acquire hNothing rfl (fun _ => rfl) fun r _ hFresh => ?_
  by_cases hOk : r = .success
  · subst hOk
    -- From here on the arguments are there to destroy.
    have hArgp :
        ∀ x ∈ [DpaObject.argp], x ∈ [DpaObject.argp] :=
      fun _ hMem => hMem
    refine Prog.wp_ite (fun hNe => absurd rfl hNe) fun _ => ?_
    refine wp_use hArgp rfl (fun _ => rfl) fun r _ => ?_
    refine
      Prog.wp_ite (fun _ => after_argpDestroy rfl settled_start)
        fun _ => ?_
    refine wp_use hArgp rfl (fun _ => rfl) fun r _ => ?_
    refine
      Prog.wp_ite (fun _ => after_argpDestroy rfl settled_start)
        fun _ => ?_
    refine (Prog.wp_bind _ _ _ _ _ _).mpr ?_
    refine after_allocateDpaResources ?_ ?_
    · intro r _
      exact after_argpDestroy rfl settled_start
    · intro device dpa _ _
      exact after_runSample
  · have hAcquires :
        dpaInterface.acquires .argpInit r = none :=
      if_neg hOk
    rw [hAcquires]
    exact
      Prog.wp_ite (fun _ => settled_start)
        fun hNot => absurd hOk hNot

end Drex

------------------------------------------------------------
-- Lifetimes
------------------------------------------------------------

namespace Drex

open Drex.Core

/-
  Whatever the library answers, a process of the DPU that
  exits has given back all that it was given.  It never
  names an object that it does not have unless a set-up call
  of an event failed, and then it always does; it exits with
  success only where the kernels did.
-/
theorem lifetimes
    {cfg : DpaConfig}
    {deviceName : Str}
    {trace : List (Prog.Event DpaOp DpaResp)}
    {exit : Bool}
    {g : DpaLedger}
    (hRun :
      Prog.Runs dpaInterface.answers DpaLedger.start
        (dpaMain cfg deviceName) trace exit g) :
    g.live = [] ∧
      (g.sound = true ↔ .setUpFailed ∉ g.noted) ∧
      (exit = true →
        .ran ∈ g.noted ∧ .setUpFailed ∉ g.noted) := by
  have hSettled : Settled exit g :=
    Prog.wp_runs after_dpaMain hRun
  exact ⟨hSettled.empty, hSettled.sound, hSettled.ran⟩

/- An event that cannot be started. -/
def failedStart : List (Prog.Event DpaOp DpaResp) :=
  [⟨.createBackend, DocaError.success⟩,
    ⟨.createSdkBackend, DocaError.success⟩,
    ⟨.setSdkLevel, DocaError.success⟩,
    ⟨.argpInit, DocaError.success⟩,
    ⟨.registerParams, DocaError.success⟩,
    ⟨.argpStart, DocaError.success⟩,
    ⟨.createList, Except.ok (0, 1)⟩,
    ⟨.isSupported 0 0, DocaError.success⟩,
    ⟨.ibdevName 0 0, Except.ok []⟩,
    ⟨.openDevice 0 0, Except.ok 0⟩,
    ⟨.destroyList 0, DocaError.success⟩,
    ⟨.createDpa 0, Except.ok 0⟩,
    ⟨.setApp 0, DocaError.success⟩,
    ⟨.startDpa 0, DocaError.success⟩,
    ⟨.createEvent, Except.ok 0⟩,
    ⟨.setUpEvent 0 (.publisher (.device 0)),
      DocaError.success⟩,
    ⟨.setUpEvent 0 (.subscriber (.dpa 0)),
      DocaError.success⟩,
    ⟨.setUpEvent 0 .start, DocaError.unexpected⟩,
    ⟨.destroyEvent 0, DocaError.success⟩,
    ⟨.destroyEvent 0, DocaError.unexpected⟩,
    ⟨.destroyDpa 0, DocaError.success⟩,
    ⟨.closeDevice 0, DocaError.success⟩,
    ⟨.argpDestroy, DocaError.success⟩]

/- Its event is destroyed twice. -/
theorem lifetimes_failedStart :
    ∃ g,
      Prog.Runs dpaInterface.answers DpaLedger.start
        (dpaMain
          { defaultName := []
            notFound := .other 0
            notFound_ne := by decide }
          [])
        failedStart false g ∧
      g.live = [] ∧ g.sound = false := by
  let left : DpaLedger :=
    { live := [], sound := false, noted := [.setUpFailed] }
  have hRun :
      Prog.Runs dpaInterface.answers DpaLedger.start
        (dpaMain
          { defaultName := []
            notFound := .other 0
            notFound_ne := by decide }
          [])
        failedStart false left := by
    unfold failedStart
    repeat
      refine
        Prog.Runs.call (Interface.answers_after _ ?_ rfl) ?_
      rotate_left
    · exact Prog.Runs.ret _ _
    all_goals
      first
      | exact True.intro
      | exact fun hEq => by cases hEq
  refine ⟨left, hRun, (lifetimes hRun).1, ?_⟩
  refine Bool.eq_false_iff.mpr fun hSound => ?_
  exact
    (lifetimes hRun).2.1.mp hSound List.mem_cons_self

end Drex
