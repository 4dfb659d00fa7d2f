import SamdReference.I2cTester.Basic
import SamdReference.Reentrant.Ledger
import SamdReference.Reentrant.Serving

/-!
# The GPIO components

`CuriosityReference::GpioIn` and `GpioOut` own no members. Each asks its driver for one
thing through a returning port and reports the outcome, and an entry here brings the
driver's answer along.

`transitionIn` runs in the interrupt of the edge. On the board that interrupt can come at
any instruction, also between the `readOut` of a READ and its event. Pre-emption is not
modelled: here an edge is handled between two entries or inside a call that a handler
makes.
-/

namespace CuriosityReference

open Reentrant (Handler Component Ledger Output Turn filterMap_flatMap_of_each)
open I2cTester (CmdResponse)

inductive Logic where
  | low
  | high
  deriving DecidableEq, Repr

/-- `Drv::GpioStatus`. The status crosses a driver boundary, so a raw value outside the
enumeration is possible. -/
inductive GpioStatus where
  | opOk
  | notOpened
  | invalidMode
  | other (raw : Int)
  deriving DecidableEq, Repr

namespace GpioIn

/-- An entry and what `readOut` answers during it: a status, and a level that means
something when the status is `OP_OK`. -/
inductive Input where
  | transitionIn (status : GpioStatus) (level : Logic)
  | read (opCode cmdSeq : UInt32) (status : GpioStatus) (level : Logic)
  deriving DecidableEq

inductive Note where
  | readOut
  | readFailed (status : GpioStatus)
  | levelTransitioned (state : Logic)
  | readLevel (state : Logic)
  deriving DecidableEq

inductive Port where
  | cmdResponse (opCode cmdSeq : UInt32) (response : CmdResponse)
  deriving DecidableEq

abbrev Method := Handler Unit Note Port Empty

def transitionInHandler (status : GpioStatus) (state : Logic) : Method Unit := do
  Handler.note .readOut
  if status ≠ .opOk then
    Handler.note (.readFailed status)
    return
  Handler.note (.levelTransitioned state)

def readCmdHandler (opCode cmdSeq : UInt32) (status : GpioStatus) (state : Logic) :
    Method Unit := do
  Handler.note .readOut
  if status ≠ .opOk then
    Handler.note (.readFailed status)
    Handler.call (.cmdResponse opCode cmdSeq .executionError)
    return
  Handler.note (.readLevel state)
  Handler.call (.cmdResponse opCode cmdSeq .ok)

def component : Component Unit Input Note Port Empty where
  handle
    | .transitionIn status level => transitionInHandler status level
    | .read opCode cmdSeq status level => readCmdHandler opCode cmdSeq status level

theorem turn_transition (status : GpioStatus) (level : Logic) :
    component.turn (.transitionIn status level) () =
      ⟨[.readOut, if status = .opOk then .levelTransitioned level else .readFailed status],
        none, (), none⟩ := by
  by_cases ok : status = .opOk <;> simp [Component.turn, component, transitionInHandler, ok]

theorem turn_read (opCode cmdSeq : UInt32) (status : GpioStatus) (level : Logic) :
    component.turn (.read opCode cmdSeq status level) () =
      ⟨[.readOut, if status = .opOk then .readLevel level else .readFailed status],
        some (.cmdResponse opCode cmdSeq (if status = .opOk then .ok else .executionError)),
        (), none⟩ := by
  by_cases ok : status = .opOk <;> simp [Component.turn, component, readCmdHandler, ok]

theorem component_callsLast : component.CallsLast := by
  rintro (⟨status, level⟩ | ⟨opCode, cmdSeq, status, level⟩) t
  · by_cases ok : status = .opOk <;> simp [component, transitionInHandler, ok]
  · by_cases ok : status = .opOk <;> simp [component, readCmdHandler, ok]

/-- What handling the entries one after the other outputs. -/
def respond (entries : List Input) : List (Output Note Port) :=
  entries.flatMap fun m => (component.turn m ()).outputs

/-- The levels the driver answered a read with. -/
def sampled (entries : List Input) : List Logic :=
  entries.filterMap fun
    | .transitionIn status level => if status = .opOk then some level else none
    | .read _ _ status level => if status = .opOk then some level else none

/-- The statuses the driver refused a read with. -/
def refused (entries : List Input) : List GpioStatus :=
  entries.filterMap fun
    | .transitionIn status _ => if status = .opOk then none else some status
    | .read _ _ status _ => if status = .opOk then none else some status

/-- The levels the ground is told. -/
def reportedLevels (outputs : List (Output Note Port)) : List Logic :=
  outputs.filterMap fun
    | .note (.levelTransitioned state) => some state
    | .note (.readLevel state) => some state
    | _ => none

/-- The failures the ground is told. -/
def reportedFailures (outputs : List (Output Note Port)) : List GpioStatus :=
  outputs.filterMap fun
    | .note (.readFailed status) => some status
    | _ => none

theorem reportedLevels_respond (entries : List Input) :
    reportedLevels (respond entries) = sampled entries := by
  apply filterMap_flatMap_of_each
  rintro (⟨status, level⟩ | ⟨opCode, cmdSeq, status, level⟩)
  · rw [turn_transition]
    by_cases ok : status = .opOk <;> simp [Turn.outputs, ok]
  · rw [turn_read]
    by_cases ok : status = .opOk <;> simp [Turn.outputs, ok]

theorem reportedFailures_respond (entries : List Input) :
    reportedFailures (respond entries) = refused entries := by
  apply filterMap_flatMap_of_each
  rintro (⟨status, level⟩ | ⟨opCode, cmdSeq, status, level⟩)
  · rw [turn_transition]
    by_cases ok : status = .opOk <;> simp [Turn.outputs, ok]
  · rw [turn_read]
    by_cases ok : status = .opOk <;> simp [Turn.outputs, ok]

/-- A READ is answered in its own turn, and an edge is no request. -/
def ledger : Ledger Unit Input Port (UInt32 × UInt32) where
  request
    | .transitionIn _ _ => none
    | .read opCode cmdSeq _ _ => some (opCode, cmdSeq)
  answer
    | .cmdResponse opCode cmdSeq _ => some (opCode, cmdSeq)
  owed _ := 0

theorem ledger_balanced : ledger.Balanced component fun _ => True where
  kept := by
    intro m t _
    trivial
  turn := by
    rintro (⟨status, level⟩ | ⟨opCode, cmdSeq, status, level⟩) t _
    · rw [turn_transition]
      rfl
    · rw [turn_read]
      rfl

end GpioIn

namespace GpioOut

/-- An entry and the status `write` answers during it. -/
inductive Input where
  | set (opCode cmdSeq : UInt32) (state : Logic) (status : GpioStatus)
  deriving DecidableEq

inductive Note where
  | write (state : Logic)
  | writeFailed (status : GpioStatus) (state : Logic)
  deriving DecidableEq

inductive Port where
  | cmdResponse (opCode cmdSeq : UInt32) (response : CmdResponse)
  deriving DecidableEq

abbrev Method := Handler Unit Note Port Empty

def setCmdHandler (opCode cmdSeq : UInt32) (state : Logic) (status : GpioStatus) :
    Method Unit := do
  Handler.note (.write state)
  if status ≠ .opOk then
    Handler.note (.writeFailed status state)
    Handler.call (.cmdResponse opCode cmdSeq .executionError)
    return
  Handler.call (.cmdResponse opCode cmdSeq .ok)

def component : Component Unit Input Note Port Empty where
  handle
    | .set opCode cmdSeq state status => setCmdHandler opCode cmdSeq state status

theorem turn_set (opCode cmdSeq : UInt32) (state : Logic) (status : GpioStatus) :
    component.turn (.set opCode cmdSeq state status) () =
      ⟨.write state :: if status = .opOk then [] else [.writeFailed status state],
        some (.cmdResponse opCode cmdSeq (if status = .opOk then .ok else .executionError)),
        (), none⟩ := by
  by_cases ok : status = .opOk <;> simp [Component.turn, component, setCmdHandler, ok]

theorem component_callsLast : component.CallsLast := by
  rintro ⟨opCode, cmdSeq, state, status⟩ t
  by_cases ok : status = .opOk <;> simp [component, setCmdHandler, ok]

/-- What handling the entries one after the other outputs. -/
def respond (entries : List Input) : List (Output Note Port) :=
  entries.flatMap fun m => (component.turn m ()).outputs

/-- The level the pin is driven to. A write that is refused does not change it. -/
def driven (initial : Logic) (entries : List Input) : Logic :=
  entries.foldl (fun level => fun
    | .set _ _ state status => if status = .opOk then state else level) initial

/-- The levels commanded. -/
def commanded (entries : List Input) : List Logic :=
  entries.map fun
    | .set _ _ state _ => state

/-- The answers to the commands. -/
def verdicts (outputs : List (Output Note Port)) : List CmdResponse :=
  outputs.filterMap fun
    | .call (.cmdResponse _ _ response) => some response
    | _ => none

/-- The level the ground infers from the levels it commanded and the answers it got. -/
def confirmed (initial : Logic) (levels : List Logic) (answers : List CmdResponse) : Logic :=
  (levels.zip answers).foldl (fun level r => if r.2 = .ok then r.1 else level) initial

/-- The writes the driver refused. -/
def refused (entries : List Input) : List (GpioStatus × Logic) :=
  entries.filterMap fun
    | .set _ _ state status => if status = .opOk then none else some (status, state)

/-- The failures the ground is told. -/
def reportedFailures (outputs : List (Output Note Port)) : List (GpioStatus × Logic) :=
  outputs.filterMap fun
    | .note (.writeFailed status state) => some (status, state)
    | _ => none

theorem reportedFailures_respond (entries : List Input) :
    reportedFailures (respond entries) = refused entries := by
  apply filterMap_flatMap_of_each
  rintro ⟨opCode, cmdSeq, state, status⟩
  rw [turn_set]
  by_cases ok : status = .opOk <;> simp [Turn.outputs, ok]

theorem verdicts_respond (entries : List Input) :
    verdicts (respond entries) = entries.map fun
      | .set _ _ _ status => if status = .opOk then .ok else .executionError := by
  rw [← List.filterMap_eq_map]
  apply filterMap_flatMap_of_each
  rintro ⟨opCode, cmdSeq, state, status⟩
  rw [turn_set]
  by_cases ok : status = .opOk <;> simp [Turn.outputs, ok]

/-- What the ground infers is what the pin is driven to. -/
theorem confirmed_respond (initial : Logic) (entries : List Input) :
    confirmed initial (commanded entries) (verdicts (respond entries)) =
      driven initial entries := by
  rw [verdicts_respond]
  induction entries generalizing initial with
  | nil => rfl
  | cons m entries ih =>
      obtain ⟨opCode, cmdSeq, state, status⟩ := m
      by_cases ok : status = .opOk
      · simpa [confirmed, commanded, driven, ok] using ih state
      · simpa [confirmed, commanded, driven, ok] using ih initial

/-- A SET is answered in its own turn. -/
def ledger : Ledger Unit Input Port (UInt32 × UInt32) where
  request
    | .set opCode cmdSeq _ _ => some (opCode, cmdSeq)
  answer
    | .cmdResponse opCode cmdSeq _ => some (opCode, cmdSeq)
  owed _ := 0

theorem ledger_balanced : ledger.Balanced component fun _ => True where
  kept := by
    intro m t _
    trivial
  turn := by
    rintro ⟨opCode, cmdSeq, state, status⟩ t _
    rw [turn_set]
    rfl

end GpioOut
end CuriosityReference
