import Drex.Core.Tally

/-
  `ScopedClientCancellation`: while a call is open, Ctrl+C
  sets a flag, and a watcher thread cancels the call.

  The main thread, the watcher and the signal interleave in
  any order.

  Key definitions include:
    * `CancelScope`
    * `CancelScope.advance`
    * `CancelScope.watch`
    * `CancelScope.step`
    * `CancelScope.Sound`
    * `CancelScope.Flagged`

  Key theorems include:
    * `CancelScope.sound_step`
    * `CancelScope.sound_reaches`
    * `CancelScope.Flagged.step`
    * `CancelScope.Flagged.cancels`
-/

------------------------------------------------------------
-- State
------------------------------------------------------------

namespace Drex

/- The next action of the thread that owns the scope. -/
inductive ScopePc
| reset
| install
| spawn
| body
| storeStop
| join
| restore
| left
deriving DecidableEq

/- The next action of the watcher thread. -/
inductive ScopeWatcher
| absent
| checkStop
| checkFlag
| cancel
| finished
deriving DecidableEq

/-
  `g_client_interrupt_requested`, `stop_`, whether the
  handler is installed, the interrupts it caught and those
  that went to the previous action, and the calls of
  `TryCancel`.
-/
structure CancelScope where
  pc : ScopePc
  watcher : ScopeWatcher
  requested : Bool
  stop : Bool
  handler : Bool
  caught : Nat
  passed : Nat
  cancels : Nat
deriving DecidableEq

inductive ScopeEvent
| main
| watch
| interrupt
deriving DecidableEq

namespace CancelScope

/- The flag may still be set from a call before. -/
def start (requested : Bool) : CancelScope :=
  { pc := .reset
    watcher := .absent
    requested := requested
    stop := false
    handler := false
    caught := 0
    passed := 0
    cancels := 0 }

variable (hasContext : Bool) (s : CancelScope)

/- `watcher_.joinable()` is false, or the join returns. -/
def joinable : Bool :=
  decide (s.watcher = .absent ∨ s.watcher = .finished)

/- The constructor, the call, and the destructor. -/
def advance : Option CancelScope :=
  match s.pc with
  | .reset =>
      some { s with requested := false, pc := .install }
  | .install => some { s with handler := true, pc := .spawn }
  | .spawn =>
      some
        { s with
          watcher := if hasContext then .checkStop else .absent
          pc := .body }
  | .body => some { s with pc := .storeStop }
  | .storeStop => some { s with stop := true, pc := .join }
  | .join =>
      if s.joinable then some { s with pc := .restore }
      else none
  | .restore => some { s with handler := false, pc := .left }
  | .left => none

/- The loop of the watcher thread. -/
def watch : Option CancelScope :=
  match s.watcher with
  | .absent => none
  | .checkStop =>
      some
        { s with
          watcher := if s.stop then .finished else .checkFlag }
  | .checkFlag =>
      some
        { s with
          watcher :=
            if s.requested then .cancel else .checkStop }
  | .cancel =>
      some
        { s with
          cancels := s.cancels + 1
          watcher := .finished }
  | .finished => none

/- `HandleClientInterrupt`, or the previous action. -/
def interrupt : CancelScope :=
  if s.handler then
    { s with requested := true, caught := s.caught + 1 }
  else
    { s with passed := s.passed + 1 }

def step (s : CancelScope) : ScopeEvent → Option CancelScope
| .main => s.advance hasContext
| .watch => s.watch
| .interrupt => some s.interrupt

end CancelScope

end Drex

------------------------------------------------------------
-- What Holds In A Scope
------------------------------------------------------------

namespace Drex

namespace CancelScope

/- What holds at each point of the owning thread. -/
def PlaceSound (s : CancelScope) : Prop :=
  match s.pc with
  | .reset =>
      s.handler = false ∧ s.stop = false ∧
        s.watcher = .absent ∧ s.caught = 0
  | .install =>
      s.handler = false ∧ s.stop = false ∧
        s.watcher = .absent
  | .spawn =>
      s.handler = true ∧ s.stop = false ∧ s.watcher = .absent
  | .body => s.handler = true ∧ s.stop = false
  | .storeStop => s.handler = true ∧ s.stop = false
  | .join => s.handler = true ∧ s.stop = true
  | .restore => s.handler = true ∧ s.joinable = true
  | .left => s.handler = false ∧ s.joinable = true

/-
  The watcher cancels once, for an interrupt that was caught,
  and ends for no other reason than that or the end of the
  scope.
-/
structure Sound (s : CancelScope) : Prop where
  place : s.PlaceSound
  flag :
    s.pc ≠ .reset → (s.requested = true ↔ 0 < s.caught)
  waiting : s.watcher ≠ .finished → s.cancels = 0
  cancelling : s.watcher = .cancel → 0 < s.caught
  finished :
    s.watcher = .finished →
      s.stop = true ∧ s.cancels = 0 ∨
        s.cancels = 1 ∧ 0 < s.caught

theorem sound_start (requested : Bool) :
    (start requested).Sound where
  place := ⟨rfl, rfl, rfl, rfl⟩
  flag := fun h => absurd rfl h
  waiting := fun _ => rfl
  cancelling := by simp [start]
  finished := by simp [start]

variable {hasContext : Bool} {s s' : CancelScope}

/- A step that neither cancels nor changes the flag. -/
theorem Sound.goOn
    (h : s.Sound)
    (hLater : s.pc ≠ .reset)
    (hWatcher :
      (s'.watcher, s'.cancels) = (s.watcher, s.cancels))
    (hFlag : (s'.requested, s'.caught) = (s.requested, s.caught))
    (hStop : s.stop = true → s'.stop = true)
    (hPlace : s'.PlaceSound) :
    s'.Sound := by
  simp only [Prod.mk.injEq] at hWatcher hFlag
  rcases hWatcher with ⟨hWatcher, hCancels⟩
  rcases hFlag with ⟨hRequested, hCaught⟩
  refine
    { place := hPlace
      flag := ?_
      waiting := ?_
      cancelling := ?_
      finished := ?_ }
  · intro _
    rw [hRequested, hCaught]
    exact h.flag hLater
  · rw [hWatcher, hCancels]
    exact h.waiting
  · rw [hWatcher, hCaught]
    exact h.cancelling
  · rw [hWatcher, hCancels, hCaught]
    intro hFinished
    rcases h.finished hFinished with hEnded | hCancelled
    · exact Or.inl ⟨hStop hEnded.1, hEnded.2⟩
    · exact Or.inr hCancelled

theorem sound_advance
    (h : s.Sound)
    (hStep : s.advance hasContext = some s') :
    s'.Sound := by
  have hPlace := h.place
  unfold PlaceSound at hPlace
  unfold advance at hStep
  cases hPc : s.pc with
  | reset =>
      rw [hPc] at hPlace hStep
      rw [← Option.some.inj hStep]
      rcases hPlace with ⟨hHandler, hStop, hAbsent, hCaught⟩
      exact
        { place := ⟨hHandler, hStop, hAbsent⟩
          flag := fun _ => by simp [hCaught]
          waiting := h.waiting
          cancelling := h.cancelling
          finished := h.finished }
  | install =>
      rw [hPc] at hPlace hStep
      rw [← Option.some.inj hStep]
      exact
        h.goOn (by simp [hPc]) rfl rfl id
          ⟨rfl, hPlace.2.1, hPlace.2.2⟩
  | spawn =>
      rw [hPc] at hPlace hStep
      rw [← Option.some.inj hStep]
      rcases hPlace with ⟨hHandler, hStop, hAbsent⟩
      have hNone : s.cancels = 0 :=
        h.waiting (by simp [hAbsent])
      have hFlag := h.flag (by simp [hPc])
      cases hasContext with
      | false =>
          exact
            { place := ⟨hHandler, hStop⟩
              flag := fun _ => hFlag
              waiting := fun _ => hNone
              cancelling := by simp
              finished := by simp }
      | true =>
          exact
            { place := ⟨hHandler, hStop⟩
              flag := fun _ => hFlag
              waiting := fun _ => hNone
              cancelling := by simp
              finished := by simp }
  | body =>
      rw [hPc] at hPlace hStep
      rw [← Option.some.inj hStep]
      exact h.goOn (by simp [hPc]) rfl rfl id hPlace
  | storeStop =>
      rw [hPc] at hPlace hStep
      rw [← Option.some.inj hStep]
      exact
        h.goOn (by simp [hPc]) rfl rfl (fun _ => rfl)
          ⟨hPlace.1, rfl⟩
  | join =>
      rw [hPc] at hPlace hStep
      dsimp only at hStep
      split at hStep
      · rename_i hJoinable
        rw [← Option.some.inj hStep]
        exact
          h.goOn (by simp [hPc]) rfl rfl id
            ⟨hPlace.1, hJoinable⟩
      · cases hStep
  | restore =>
      rw [hPc] at hPlace hStep
      rw [← Option.some.inj hStep]
      exact
        h.goOn (by simp [hPc]) rfl rfl id ⟨rfl, hPlace.2⟩
  | left =>
      rw [hPc] at hStep
      cases hStep

/- A thread that can move is not joinable. -/
theorem joinable_of_watch
    (hStep : s.watch = some s') :
    s.joinable = false := by
  unfold watch at hStep
  cases hWatcher : s.watcher with
  | absent =>
      rw [hWatcher] at hStep
      cases hStep
  | finished =>
      rw [hWatcher] at hStep
      cases hStep
  | checkStop | checkFlag | cancel =>
      simp [joinable, hWatcher]

/- The watcher moves while the call is open. -/
theorem Sound.open_of_watch
    (h : s.Sound)
    (hStep : s.watch = some s') :
    s.pc = .body ∨ s.pc = .storeStop ∨ s.pc = .join := by
  have hPlace := h.place
  have hRuns := joinable_of_watch hStep
  unfold PlaceSound at hPlace
  cases hPc : s.pc with
  | body => exact Or.inl rfl
  | storeStop => exact Or.inr (Or.inl rfl)
  | join => exact Or.inr (Or.inr rfl)
  | reset =>
      rw [hPc] at hPlace
      simp [joinable, hPlace.2.2.1] at hRuns
  | install =>
      rw [hPc] at hPlace
      simp [joinable, hPlace.2.2] at hRuns
  | spawn =>
      rw [hPc] at hPlace
      simp [joinable, hPlace.2.2] at hRuns
  | restore =>
      rw [hPc] at hPlace
      rw [hPlace.2] at hRuns
      cases hRuns
  | left =>
      rw [hPc] at hPlace
      rw [hPlace.2] at hRuns
      cases hRuns

/- What the watcher does matters to nobody's place. -/
theorem Sound.place_of_watch
    (h : s.Sound)
    (hStep : s.watch = some s')
    (hPc : s'.pc = s.pc)
    (hFlags :
      (s'.handler, s'.stop, s'.caught) =
        (s.handler, s.stop, s.caught)) :
    s'.PlaceSound := by
  have hPlace := h.place
  simp only [Prod.mk.injEq] at hFlags
  rcases hFlags with ⟨hHandler, hStop, hCaught⟩
  unfold PlaceSound at hPlace ⊢
  rw [hPc, hHandler, hStop]
  rcases h.open_of_watch hStep with hAt | hAt | hAt
  · rw [hAt] at hPlace ⊢
    exact hPlace
  · rw [hAt] at hPlace ⊢
    exact hPlace
  · rw [hAt] at hPlace ⊢
    exact hPlace

theorem sound_watch
    (h : s.Sound)
    (hStep : s.watch = some s') :
    s'.Sound := by
  have hLater : s.pc ≠ .reset := by
    intro hPc
    rcases h.open_of_watch hStep with hAt | hAt | hAt
    · rw [hPc] at hAt
      cases hAt
    · rw [hPc] at hAt
      cases hAt
    · rw [hPc] at hAt
      cases hAt
  have hPlace :
      s'.pc = s.pc →
        (s'.handler, s'.stop, s'.caught) =
            (s.handler, s.stop, s.caught) →
          s'.PlaceSound :=
    h.place_of_watch hStep
  unfold watch at hStep
  cases hWatcher : s.watcher with
  | absent =>
      rw [hWatcher] at hStep
      cases hStep
  | finished =>
      rw [hWatcher] at hStep
      cases hStep
  | checkStop =>
      rw [hWatcher] at hStep
      have hEq := (Option.some.inj hStep).symm
      have hNone := h.waiting (by simp [hWatcher])
      subst hEq
      refine
        { place := hPlace rfl rfl
          flag := fun _ => h.flag hLater
          waiting := fun _ => hNone
          cancelling := ?_
          finished := ?_ }
      · intro hCancel
        dsimp only at hCancel
        split at hCancel
        · cases hCancel
        · cases hCancel
      · intro hFinished
        dsimp only at hFinished ⊢
        split at hFinished
        · rename_i hStop
          exact Or.inl ⟨hStop, hNone⟩
        · cases hFinished
  | checkFlag =>
      rw [hWatcher] at hStep
      have hEq := (Option.some.inj hStep).symm
      have hNone := h.waiting (by simp [hWatcher])
      subst hEq
      refine
        { place := hPlace rfl rfl
          flag := fun _ => h.flag hLater
          waiting := fun _ => hNone
          cancelling := ?_
          finished := ?_ }
      · intro hCancel
        dsimp only at hCancel ⊢
        split at hCancel
        · rename_i hRequested
          exact (h.flag hLater).mp hRequested
        · cases hCancel
      · intro hFinished
        dsimp only at hFinished
        split at hFinished
        · cases hFinished
        · cases hFinished
  | cancel =>
      rw [hWatcher] at hStep
      have hEq := (Option.some.inj hStep).symm
      have hNone := h.waiting (by simp [hWatcher])
      have hCaught := h.cancelling hWatcher
      subst hEq
      exact
        { place := hPlace rfl rfl
          flag := fun _ => h.flag hLater
          waiting := fun hRuns => absurd rfl hRuns
          cancelling := by simp
          finished := fun _ =>
            Or.inr ⟨by simp [hNone], hCaught⟩ }

/- An interrupt sets the flag, or is not for the call. -/
theorem sound_interrupt
    (h : s.Sound) :
    s.interrupt.Sound := by
  have hPlace := h.place
  unfold PlaceSound at hPlace
  unfold interrupt
  split
  · rename_i hHandler
    have hLater : s.pc ≠ .reset := by
      intro hPc
      rw [hPc] at hPlace
      rw [hPlace.1] at hHandler
      cases hHandler
    refine
      { place := ?_
        flag := fun _ => by simp
        waiting := h.waiting
        cancelling := fun _ => Nat.succ_pos _
        finished := ?_ }
    · unfold PlaceSound
      cases hPc : s.pc with
      | reset => exact absurd hPc hLater
      | install | spawn | body | storeStop | join | restore
      | left =>
          rw [hPc] at hPlace
          exact hPlace
    · intro hFinished
      rcases h.finished hFinished with hEnded | hCancelled
      · exact Or.inl hEnded
      · exact Or.inr ⟨hCancelled.1, Nat.succ_pos _⟩
  · exact
      { place := h.place
        flag := h.flag
        waiting := h.waiting
        cancelling := h.cancelling
        finished := h.finished }

theorem sound_step
    {e : ScopeEvent}
    (h : s.Sound)
    (hStep : step hasContext s e = some s') :
    s'.Sound := by
  cases e with
  | main => exact sound_advance h hStep
  | watch => exact sound_watch h hStep
  | interrupt =>
      rw [← Option.some.inj hStep]
      exact sound_interrupt h

/- The scope calls `TryCancel` at most once. -/
theorem Sound.cancels_le
    (h : s.Sound) :
    s.cancels ≤ 1 ∧ (0 < s.cancels → 0 < s.caught) := by
  by_cases hFinished : s.watcher = .finished
  · rcases h.finished hFinished with hEnded | hCancelled
    · rw [hEnded.2]
      simp
    · exact
        ⟨Nat.le_of_eq hCancelled.1, fun _ => hCancelled.2⟩
  · rw [h.waiting hFinished]
    simp

/- What was cancelled stays cancelled. -/
theorem cancels_mono
    {e : ScopeEvent}
    (hStep : step hasContext s e = some s') :
    s.cancels ≤ s'.cancels := by
  cases e with
  | main =>
      change s.advance hasContext = some s' at hStep
      unfold advance at hStep
      cases hPc : s.pc with
      | join =>
          rw [hPc] at hStep
          dsimp only at hStep
          split at hStep
          · cases hStep
            exact Nat.le_refl _
          · cases hStep
      | left =>
          rw [hPc] at hStep
          cases hStep
      | reset | install | spawn | body | storeStop
      | restore =>
          rw [hPc] at hStep
          cases hStep
          exact Nat.le_refl _
  | watch =>
      change s.watch = some s' at hStep
      unfold watch at hStep
      cases hWatcher : s.watcher with
      | absent | finished =>
          rw [hWatcher] at hStep
          cases hStep
      | checkStop | checkFlag =>
          rw [hWatcher] at hStep
          cases hStep
          exact Nat.le_refl _
      | cancel =>
          rw [hWatcher] at hStep
          cases hStep
          exact Nat.le_succ _
  | interrupt =>
      rw [← Option.some.inj hStep]
      unfold interrupt
      split
      · exact Nat.le_refl _
      · exact Nat.le_refl _

theorem sound_reaches
    {requested : Bool}
    (h :
      Core.Reaches (step hasContext) (start requested) s) :
    s.Sound :=
  h.invariant (sound_start requested)
    fun _ _ _ => sound_step

end CancelScope

end Drex

------------------------------------------------------------
-- After An Interrupt
------------------------------------------------------------

namespace Drex

/- The steps the watcher has left once the flag is set. -/
def ScopeWatcher.left : ScopeWatcher → Nat
| .absent => 3
| .checkStop => 3
| .checkFlag => 2
| .cancel => 1
| .finished => 0

namespace CancelScope

/- An interrupt was caught in this scope. -/
structure Flagged (s : CancelScope) : Prop where
  sound : s.Sound
  later : s.pc ≠ .reset
  requested : s.requested = true

def watches : CancelScope → ScopeEvent → Bool
| _, .watch => true
| _, _ => false

namespace Flagged

variable {hasContext : Bool} {s s' : CancelScope}

/- The flag stays set until the scope is left. -/
theorem advance
    (h : s.Flagged)
    (hStep : s.advance hasContext = some s') :
    s'.requested = true ∧ s'.pc ≠ .reset ∧
      s'.watcher.left ≤ s.watcher.left := by
  have hPlace := h.sound.place
  unfold PlaceSound at hPlace
  unfold CancelScope.advance at hStep
  cases hPc : s.pc with
  | reset => exact absurd hPc h.later
  | spawn =>
      rw [hPc] at hPlace hStep
      rw [← Option.some.inj hStep, hPlace.2.2]
      refine ⟨h.requested, by simp, ?_⟩
      cases hasContext with
      | false => exact Nat.le_refl _
      | true => exact Nat.le_refl _
  | join =>
      rw [hPc] at hStep
      dsimp only at hStep
      split at hStep
      · rw [← Option.some.inj hStep]
        exact ⟨h.requested, by simp, Nat.le_refl _⟩
      · cases hStep
  | install | body | storeStop | restore =>
      rw [hPc] at hStep
      rw [← Option.some.inj hStep]
      exact ⟨h.requested, by simp, Nat.le_refl _⟩
  | left =>
      rw [hPc] at hStep
      cases hStep

/- Each step of the watcher brings it closer to its end. -/
theorem watch
    (h : s.Flagged)
    (hStep : s.watch = some s') :
    s'.requested = true ∧ s'.pc ≠ .reset ∧
      1 + s'.watcher.left ≤ s.watcher.left := by
  unfold CancelScope.watch at hStep
  cases hWatcher : s.watcher with
  | absent =>
      rw [hWatcher] at hStep
      cases hStep
  | finished =>
      rw [hWatcher] at hStep
      cases hStep
  | checkStop =>
      rw [hWatcher] at hStep
      rw [← Option.some.inj hStep]
      refine ⟨h.requested, h.later, ?_⟩
      dsimp only
      split
      · simp [ScopeWatcher.left]
      · simp [ScopeWatcher.left]
  | checkFlag =>
      rw [hWatcher] at hStep
      rw [← Option.some.inj hStep]
      refine ⟨h.requested, h.later, ?_⟩
      simp [h.requested, ScopeWatcher.left]
  | cancel =>
      rw [hWatcher] at hStep
      rw [← Option.some.inj hStep]
      exact ⟨h.requested, h.later, Nat.le_refl _⟩

theorem step
    {e : ScopeEvent}
    (h : s.Flagged)
    (hStep : CancelScope.step hasContext s e = some s') :
    s'.Flagged ∧
      (watches s e).toNat + s'.watcher.left ≤
        s.watcher.left := by
  have hSound := sound_step h.sound hStep
  cases e with
  | main =>
      rcases h.advance hStep with ⟨hRequested, hLater, hLeft⟩
      refine ⟨⟨hSound, hLater, hRequested⟩, ?_⟩
      simpa [watches] using hLeft
  | watch =>
      rcases h.watch hStep with ⟨hRequested, hLater, hLeft⟩
      exact ⟨⟨hSound, hLater, hRequested⟩, hLeft⟩
  | interrupt =>
      have hEq := (Option.some.inj hStep).symm
      have hWatcher : s'.watcher = s.watcher := by
        rw [hEq]
        unfold CancelScope.interrupt
        split
        · rfl
        · rfl
      have hLater : s'.pc = s.pc := by
        rw [hEq]
        unfold CancelScope.interrupt
        split
        · rfl
        · rfl
      have hRequested : s'.requested = true := by
        rw [hEq]
        unfold CancelScope.interrupt
        split
        · rfl
        · exact h.requested
      refine ⟨⟨hSound, ?_, hRequested⟩, ?_⟩
      · rw [hLater]
        exact h.later
      · rw [hWatcher]
        simp [watches]

/- A watcher that came to its end in time has cancelled. -/
theorem cancels
    (h : s.Flagged)
    (hLeft : s.watcher.left = 0)
    (hStop : s.stop = false) :
    s.cancels = 1 := by
  have hFinished : s.watcher = .finished := by
    cases hWatcher : s.watcher with
    | finished => rfl
    | absent | checkStop | checkFlag | cancel =>
        rw [hWatcher] at hLeft
        cases hLeft
  rcases h.sound.finished hFinished with hEnded | hCancelled
  · rw [hStop] at hEnded
    cases hEnded.1
  · exact hCancelled.1

end Flagged

end CancelScope

end Drex
