import SamdReference.I2cTester.Basic
import SamdReference.Reentrant.Ledger

/-!
# The framework health component

`CuriosityReference::FrameworkHealth` counts rate-group ticks and publishes the count.
Ticks that arrive while emission is off are dropped, so the channel counts samples and
not time; `SET_STATE` says on the event channel from when on that is the case.
-/

namespace CuriosityReference

open Reentrant (Handler Component Ledger Log Obs)
open I2cTester (CmdResponse)

/-- The members of the component. -/
structure FrameworkHealth where
  running : Bool
  counter : UInt32
  deriving DecidableEq

namespace FrameworkHealth

/-- The constructor: emission is on. -/
def init : FrameworkHealth := ⟨true, 0⟩

inductive Input where
  | schedIn
  | setState (opCode cmdSeq : UInt32) (state : Bool)
  deriving DecidableEq

inductive Note where
  | counter (value : UInt32)
  | emissionStateSet (state : Bool)
  deriving DecidableEq

inductive Port where
  | cmdResponse (opCode cmdSeq : UInt32) (response : CmdResponse)
  deriving DecidableEq

abbrev Method := Handler FrameworkHealth Note Port Empty

def schedInHandler : Method Unit := do
  if (← get).running then
    -- Published first, so the first sample is 0.
    Handler.note (.counter (← get).counter)
    modify fun t => { t with counter := t.counter + 1 }

def setStateCmdHandler (opCode cmdSeq : UInt32) (state : Bool) : Method Unit := do
  modify fun t => { t with running := state }
  Handler.note (.emissionStateSet state)
  Handler.call (.cmdResponse opCode cmdSeq .ok)

def component : Component FrameworkHealth Input Note Port Empty where
  handle
    | .schedIn => schedInHandler
    | .setState opCode cmdSeq state => setStateCmdHandler opCode cmdSeq state

section Turns

variable (t : FrameworkHealth)

theorem turn_tick_off {t : FrameworkHealth} (off : t.running = false) :
    component.turn .schedIn t = ⟨[], none, t, none⟩ := by
  simp [Component.turn, component, schedInHandler, off]

theorem turn_tick_on {t : FrameworkHealth} (on : t.running = true) :
    component.turn .schedIn t =
      ⟨[.counter t.counter], none, { t with counter := t.counter + 1 }, none⟩ := by
  simp [Component.turn, component, schedInHandler, on]

theorem turn_setState (opCode cmdSeq : UInt32) (state : Bool) :
    component.turn (.setState opCode cmdSeq state) t =
      ⟨[.emissionStateSet state], some (.cmdResponse opCode cmdSeq .ok),
        { t with running := state }, none⟩ := by
  simp [Component.turn, component, setStateCmdHandler]

theorem component_callsLast : component.CallsLast := by
  rintro (_ | ⟨opCode, cmdSeq, state⟩) t
  · cases running : t.running <;> simp [component, schedInHandler, running]
  · simp [component, setStateCmdHandler]

end Turns

abbrev History := Log FrameworkHealth Input Note Port

/-- The samples published, in order. -/
def samples (log : History) : List UInt32 :=
  log.filterMap fun
    | .out (.counter value) => some value
    | _ => none

/-- What the downlink says about emission, and how many ticks arrived while it was said
to be on. -/
def observe : Bool × Nat → Obs FrameworkHealth Input Note Port → Bool × Nat
  | (on, n), .recv .schedIn _ => (on, if on then n + 1 else n)
  | (_, n), .out (.emissionStateSet state) => (state, n)
  | seen, _ => seen

def observed (log : History) : Bool × Nat := log.foldl observe (true, 0)

/-- The samples are numbered from 0 on, one for each tick that arrived while the downlink
said emission is on. -/
structure Numbered (t : FrameworkHealth) (log : History) : Prop where
  emission : t.running = (observed log).1
  counted : t.counter = UInt32.ofNat (observed log).2
  published : samples log = (List.range (observed log).2).map UInt32.ofNat

theorem observed_append (a b : History) :
    observed (a ++ b) = b.foldl observe (observed a) := List.foldl_append ..

theorem samples_append (a b : History) : samples (a ++ b) = samples a ++ samples b :=
  List.filterMap_append

/-- Records that the downlink does not show and that are no tick change nothing. -/
theorem Numbered.unseen {t : FrameworkHealth} {log rest : History} (h : Numbered t log)
    (seen : observed (log ++ rest) = observed log) (none : samples rest = []) :
    Numbered t (log ++ rest) := by
  refine ⟨?_, ?_, ?_⟩
  · rw [seen]
    exact h.emission
  · rw [seen]
    exact h.counted
  · rw [seen, samples_append, none, List.append_nil]
    exact h.published

theorem Numbered.tick {t : FrameworkHealth} {log : History} (h : Numbered t log) :
    Numbered (component.turn .schedIn t).state
      (log ++ .recv .schedIn t :: (component.turn .schedIn t).log) := by
  cases on : t.running with
  | false =>
      rw [turn_tick_off on]
      have seen : observed (log ++ [.recv .schedIn t]) = observed log := by
        rw [observed_append]
        exact Prod.ext rfl (by simp [observe, ← h.emission, on])
      exact h.unseen seen rfl
  | true =>
      have next : observed (log ++ [.recv .schedIn t, .out (.counter t.counter)]) =
          (true, (observed log).2 + 1) := by
        rw [observed_append]
        simp [observe, ← h.emission, on]
      rw [turn_tick_on on]
      change Numbered ⟨t.running, t.counter + 1⟩
        (log ++ [.recv .schedIn t, .out (.counter t.counter)])
      refine ⟨?_, ?_, ?_⟩
      · rw [next]
        exact on
      · rw [next, h.counted, UInt32.ofNat_add]
        rfl
      · rw [next, samples_append, h.published, List.range_succ, List.map_append, h.counted]
        rfl

theorem Numbered.setState {t : FrameworkHealth} {log : History} (h : Numbered t log)
    (opCode cmdSeq : UInt32) (state : Bool) :
    Numbered (component.turn (.setState opCode cmdSeq state) t).state
      (log ++ .recv (.setState opCode cmdSeq state) t ::
        (component.turn (.setState opCode cmdSeq state) t).log) := by
  have none : ∀ rest : History, samples rest = [] → samples (log ++ rest) = samples log := by
    intro rest quiet
    rw [samples_append, quiet, List.append_nil]
  rw [turn_setState]
  refine ⟨?_, ?_, ?_⟩
  · rw [observed_append]
    rfl
  · rw [observed_append]
    exact h.counted
  · rw [none _ rfl, observed_append]
    exact h.published

theorem numbered_invariant : component.Invariant fun w => Numbered w.state w.log where
  step := by
    intro w _ numbered m
    cases m with
    | schedIn => exact numbered.tick
    | setState opCode cmdSeq state => exact numbered.setState opCode cmdSeq state
  back := by
    intro w _ numbered o
    exact numbered.unseen (observed_append _ _) rfl

theorem numbered_start : Numbered init ([] : History) := ⟨rfl, rfl, rfl⟩

/-- Each command is answered in its own turn. -/
def ledger : Ledger FrameworkHealth Input Port (UInt32 × UInt32) where
  request
    | .schedIn => none
    | .setState opCode cmdSeq _ => some (opCode, cmdSeq)
  answer
    | .cmdResponse opCode cmdSeq _ => some (opCode, cmdSeq)
  owed _ := 0

theorem ledger_balanced : ledger.Balanced component fun _ => True where
  kept := by
    intro m t _
    trivial
  turn := by
    rintro (_ | ⟨opCode, cmdSeq, state⟩) t _
    · cases on : t.running with
      | false =>
          rw [turn_tick_off on]
          rfl
      | true =>
          rw [turn_tick_on on]
          rfl
    · rw [turn_setState]
      rfl

end FrameworkHealth
end CuriosityReference
