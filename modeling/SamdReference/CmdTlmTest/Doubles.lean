import Mathlib.Data.List.DropRight
import SamdReference.I2cTester.Basic
import SamdReference.Reentrant.Serving

/-!
# The components of the test topology

`Target` is what a command sent up is supposed to reach, `EventSink` and `ComSink` record
what comes out at the other end. The tests read them through accessors and reset the two
sinks between cases; a reset is an entry here like a port call.
-/

namespace CmdTlmTest

open Reentrant (Handler Component Machine Output Turn)
open CuriosityReference.I2cTester (CmdResponse)

/-- A `U32` that counts arrivals. -/
theorem count_snoc {α : Type} (arrivals : List α) (last : α) :
    UInt32.ofNat (arrivals ++ [last]).length = UInt32.ofNat arrivals.length + 1 := by
  rw [List.length_append, UInt32.ofNat_add]
  rfl

section Recent

variable {μ α : Type} {isReset : μ → Bool} {arrival? : μ → Option α} {m : μ}

/-- What arrived since the last reset. -/
def recent (isReset : μ → Bool) (arrival? : μ → Option α) (entries : List μ) : List α :=
  (entries.rtakeWhile fun m => !isReset m).filterMap arrival?

theorem recent_reset (reset : isReset m = true) (entries : List μ) :
    recent isReset arrival? (entries ++ [m]) = [] := by
  rw [recent, List.rtakeWhile_concat_neg]
  · rfl
  · simp [reset]

theorem recent_other (other : isReset m = false) (entries : List μ) :
    recent isReset arrival? (entries ++ [m]) =
      recent isReset arrival? entries ++ (arrival? m).toList := by
  rw [recent, List.rtakeWhile_concat_pos _ _ _ (by simp [other]), List.filterMap_append, recent]
  cases h : arrival? m <;> simp [h]

end Recent

/-- The members of `Target`. -/
structure Target where
  value : UInt32
  setCount : UInt32
  deriving DecidableEq

namespace Target

def init : Target := ⟨0, 0⟩

inductive Input where
  | setValue (opCode cmdSeq value : UInt32)
  deriving DecidableEq

def Input.value : Input → UInt32
  | .setValue _ _ value => value

inductive Note where
  | tlmValue (value : UInt32)
  | valueSet (value : UInt32)
  deriving DecidableEq

inductive Port where
  | cmdResponse (opCode cmdSeq : UInt32) (response : CmdResponse)
  deriving DecidableEq

abbrev Method := Handler Target Note Port Empty

def getValue (t : Target) : UInt32 := t.value
def getSetCount (t : Target) : UInt32 := t.setCount

def setValueCmdHandler (opCode cmdSeq value : UInt32) : Method Unit := do
  modify fun t => { t with value := value }
  modify fun t => { t with setCount := t.setCount + 1 }
  Handler.note (.tlmValue value)
  Handler.note (.valueSet value)
  Handler.call (.cmdResponse opCode cmdSeq .ok)

def component : Component Target Input Note Port Empty where
  handle
    | .setValue opCode cmdSeq value => setValueCmdHandler opCode cmdSeq value

theorem turn_setValue (opCode cmdSeq value : UInt32) (t : Target) :
    component.turn (.setValue opCode cmdSeq value) t =
      ⟨[.tlmValue value, .valueSet value], some (.cmdResponse opCode cmdSeq .ok),
        ⟨value, t.setCount + 1⟩, none⟩ := by
  simp [Component.turn, component, setValueCmdHandler]

theorem component_callsLast : component.CallsLast := by
  rintro ⟨opCode, cmdSeq, value⟩ t
  simp [component, setValueCmdHandler]

/-- What a command is answered with: the new value on both channels, then `OK`. -/
def respond : Input → List (Output Note Port)
  | .setValue opCode cmdSeq value =>
      [.note (.tlmValue value), .note (.valueSet value), .call (.cmdResponse opCode cmdSeq .ok)]

/-- The members after some commands. -/
def after (commands : List Input) : Target :=
  ⟨(commands.getLast?.map Input.value).getD 0, UInt32.ofNat commands.length⟩

theorem run_eq (commands : List Input) :
    (component.machine init).run commands init = (after commands, commands.flatMap respond) := by
  induction commands using List.reverseRecOn with
  | nil => rfl
  | append_singleton commands m ih =>
      obtain ⟨opCode, cmdSeq, value⟩ := m
      rw [Machine.run_append, ih, Machine.run_singleton, List.flatMap_append,
        List.flatMap_singleton]
      simp only [Component.machine, turn_setValue, after, count_snoc, List.getLast?_concat]
      rfl

end Target

/-- The members of `EventSink`. -/
structure EventSink where
  lastEventId : UInt32
  eventCount : UInt32
  deriving DecidableEq

namespace EventSink

def init : EventSink := ⟨0, 0⟩

/-- A `LogRecv` with the argument that is looked at, or a reset. -/
inductive Input where
  | logRecv (id : UInt32)
  | reset
  deriving DecidableEq

abbrev Method := Handler EventSink Empty Empty Empty

def getLastEventId (t : EventSink) : UInt32 := t.lastEventId
def getEventCount (t : EventSink) : UInt32 := t.eventCount

def reset : Method Unit := do
  modify fun t => { t with lastEventId := 0 }
  modify fun t => { t with eventCount := 0 }

def logRecvHandler (id : UInt32) : Method Unit := do
  modify fun t => { t with lastEventId := id }
  modify fun t => { t with eventCount := t.eventCount + 1 }

def component : Component EventSink Input Empty Empty Empty where
  handle
    | .logRecv id => logRecvHandler id
    | .reset => reset

theorem turn_logRecv (id : UInt32) (t : EventSink) :
    component.turn (.logRecv id) t = ⟨[], none, ⟨id, t.eventCount + 1⟩, none⟩ := by
  simp [Component.turn, component, logRecvHandler]

theorem turn_reset (t : EventSink) :
    component.turn .reset t = ⟨[], none, ⟨0, 0⟩, none⟩ := by
  simp [Component.turn, component, reset]

theorem component_callsLast : component.CallsLast := by
  rintro (id | _) t
  · simp [component, logRecvHandler]
  · simp [component, reset]

/-- The events since the last reset. -/
def events (entries : List Input) : List UInt32 :=
  recent (· = .reset)
    (fun
      | .logRecv id => some id
      | .reset => none) entries

/-- The members after some entries. -/
def after (entries : List Input) : EventSink :=
  ⟨(events entries).getLast?.getD 0, UInt32.ofNat (events entries).length⟩

theorem run_eq (entries : List Input) :
    (component.machine init).run entries init = (after entries, []) := by
  induction entries using List.reverseRecOn with
  | nil => rfl
  | append_singleton entries m ih =>
      rw [Machine.run_append, ih, Machine.run_singleton]
      cases m with
      | logRecv id =>
          have arrived : events (entries ++ [.logRecv id]) = events entries ++ [id] :=
            recent_other rfl entries
          simp only [Component.machine, turn_logRecv, after, arrived, count_snoc,
            List.getLast?_concat]
          rfl
      | reset =>
          have none : events (entries ++ [.reset]) = [] := recent_reset rfl entries
          simp only [Component.machine, turn_reset, after, none]
          rfl

end EventSink

/-- `Samd21::FramerConfig::FRAMER_TX_BUFFER_SIZE`. -/
def framerTxBufferSize : Nat := 128

/-- `Fw::Buffer`: where it is and what it holds. -/
structure Buffer where
  address : Nat
  data : List UInt8
  deriving DecidableEq

abbrev Storage := Vector UInt8 framerTxBufferSize

/-- The first bytes of `storage` overwritten with `data`. -/
def memcpy (storage : Storage) (data : List UInt8) : Storage :=
  Vector.ofFn fun i => data[i.val]?.getD (storage.get i)

theorem take_memcpy (storage : Storage) {data : List UInt8}
    (fits : data.length ≤ framerTxBufferSize) :
    (memcpy storage data).toList.take data.length = data := by
  apply List.ext_getElem
  · rw [List.length_take, Vector.length_toList, Nat.min_eq_left fits]
  · intro i _ small
    simp [memcpy, small]

/-- The members of `ComSink`. -/
structure ComSink where
  captured : Storage
  capturedSize : Nat
  sendCount : UInt32

namespace ComSink

/-- The constructor leaves the storage as it finds it. -/
def init (storage : Storage) : ComSink := ⟨storage, 0, 0⟩

/-- Calls of `$send` and `dataReturnIn`, and of `signalReady` and `reset` by the tests. -/
inductive Input where
  | send (fwBuffer : Buffer)
  | dataReturnIn (fwBuffer : Buffer)
  | signalReady
  | reset
  deriving DecidableEq

/-- A buffer goes back with the status `OP_OK`. -/
inductive Port where
  | ready
  | sendReturnOut (fwBuffer : Buffer)
  deriving DecidableEq

inductive Fault where
  | bufferSize (size : Nat)
  deriving DecidableEq

abbrev Method := Handler ComSink Empty Port Fault

section Accessors

variable (t : ComSink)

def getCapturedData : Option (List UInt8) :=
  if t.capturedSize = 0 then none else some t.captured.toList

def getCapturedSize : Nat := t.capturedSize
def getSendCount : UInt32 := t.sendCount

end Accessors

def reset : Method Unit := do
  modify fun t => { t with capturedSize := 0 }
  modify fun t => { t with sendCount := 0 }

def sendHandler (fwBuffer : Buffer) : Method Unit := do
  Handler.assert (fwBuffer.data.length ≤ framerTxBufferSize) (.bufferSize fwBuffer.data.length)
  modify fun t => { t with captured := memcpy t.captured fwBuffer.data }
  modify fun t => { t with capturedSize := fwBuffer.data.length }
  modify fun t => { t with sendCount := t.sendCount + 1 }
  -- There is nothing to wait for.
  Handler.call (.sendReturnOut fwBuffer)

def component : Component ComSink Input Empty Port Fault where
  handle
    | .send fwBuffer => sendHandler fwBuffer
    | .dataReturnIn _ => pure ()
    | .signalReady => Handler.call .ready
    | .reset => reset

/-- The assertion holds, if there is one. -/
def Input.Fits : Input → Prop
  | .send fwBuffer => fwBuffer.data.length ≤ framerTxBufferSize
  | _ => True

section Turns

variable (t : ComSink)

theorem turn_send {fwBuffer : Buffer} (fits : (Input.send fwBuffer).Fits) :
    component.turn (.send fwBuffer) t =
      ⟨[], some (.sendReturnOut fwBuffer),
        ⟨memcpy t.captured fwBuffer.data, fwBuffer.data.length, t.sendCount + 1⟩, none⟩ := by
  have fits : fwBuffer.data.length ≤ framerTxBufferSize := fits
  simp [Component.turn, component, sendHandler, fits]

theorem turn_oversized {fwBuffer : Buffer} (oversized : ¬(Input.send fwBuffer).Fits) :
    component.turn (.send fwBuffer) t =
      ⟨[], none, t, some (.bufferSize fwBuffer.data.length)⟩ := by
  have oversized : ¬fwBuffer.data.length ≤ framerTxBufferSize := oversized
  simp [Component.turn, component, sendHandler, oversized]

theorem turn_dataReturnIn (fwBuffer : Buffer) :
    component.turn (.dataReturnIn fwBuffer) t = ⟨[], none, t, none⟩ := rfl

theorem turn_signalReady : component.turn .signalReady t = ⟨[], some .ready, t, none⟩ := rfl

theorem turn_reset :
    component.turn .reset t = ⟨[], none, ⟨t.captured, 0, 0⟩, none⟩ := by
  simp [Component.turn, component, reset]

/-- Only the assertion stops the sink. -/
theorem turn_fault (m : Input) : (component.turn m t).fault = none ↔ m.Fits := by
  cases m with
  | send fwBuffer =>
      by_cases fits : (Input.send fwBuffer).Fits
      · rw [turn_send t fits]
        exact iff_of_true rfl fits
      · rw [turn_oversized t fits]
        exact iff_of_false (fun running => nomatch running) fits
  | reset =>
      rw [turn_reset]
      exact iff_of_true rfl trivial
  | _ => exact iff_of_true rfl trivial

theorem component_callsLast : component.CallsLast := by
  rintro (fwBuffer | fwBuffer | _ | _) t
  · by_cases fits : fwBuffer.data.length ≤ framerTxBufferSize <;>
      simp [component, sendHandler, fits]
  · trivial
  · exact fun _ => rfl
  · simp [component, reset]

end Turns

/-- The buffers sent since the last reset. -/
def sent (entries : List Input) : List Buffer :=
  recent (· = .reset)
    (fun
      | .send fwBuffer => some fwBuffer
      | _ => none) entries

/-- What the last of some buffers holds, or nothing. -/
def lastData (buffers : List Buffer) : List UInt8 := (buffers.getLast?.map Buffer.data).getD []

/-- Every buffer sent goes back, and `ready` is passed on. -/
def respond : Input → Option (Output Empty Port)
  | .send fwBuffer => some (.call (.sendReturnOut fwBuffer))
  | .signalReady => some (.call .ready)
  | _ => none

/-- The members hold the last buffer and count all of them. -/
structure Captures (t : ComSink) (buffers : List Buffer) : Prop where
  size : t.capturedSize = (lastData buffers).length
  data : t.captured.toList.take t.capturedSize = lastData buffers
  count : t.sendCount = UInt32.ofNat buffers.length

theorem Captures.send {t : ComSink} {buffers : List Buffer} (h : Captures t buffers)
    {fwBuffer : Buffer} (fits : (Input.send fwBuffer).Fits) :
    Captures ⟨memcpy t.captured fwBuffer.data, fwBuffer.data.length, t.sendCount + 1⟩
      (buffers ++ [fwBuffer]) := by
  have last : lastData (buffers ++ [fwBuffer]) = fwBuffer.data := by
    rw [lastData, List.getLast?_concat]
    rfl
  refine ⟨?_, ?_, ?_⟩
  · rw [last]
  · rw [last]
    exact take_memcpy t.captured fits
  · rw [count_snoc, h.count]

theorem captures_none (storage : Storage) : Captures ⟨storage, 0, 0⟩ [] := ⟨rfl, rfl, rfl⟩

theorem run_eq (storage : Storage) {entries : List Input} (fits : ∀ m ∈ entries, m.Fits) :
    Captures ((component.machine (init storage)).run entries (init storage)).1 (sent entries) ∧
      ((component.machine (init storage)).run entries (init storage)).2 =
        entries.filterMap respond := by
  induction entries using List.reverseRecOn with
  | nil => exact ⟨captures_none storage, rfl⟩
  | append_singleton entries m ih =>
      obtain ⟨captures, outputs⟩ := ih fun n member => fits n (List.mem_append_left _ member)
      have fits : m.Fits := fits m (List.mem_append_right _ List.mem_cons_self)
      rw [Machine.run_append, Machine.run_singleton, List.filterMap_append, outputs]
      generalize ((component.machine (init storage)).run entries (init storage)).1 = t at captures
      simp only [Component.machine]
      cases m with
      | send fwBuffer =>
          have arrived : sent (entries ++ [.send fwBuffer]) = sent entries ++ [fwBuffer] :=
            recent_other rfl entries
          rw [turn_send t fits, arrived]
          exact ⟨captures.send fits, rfl⟩
      | dataReturnIn fwBuffer =>
          have same : sent (entries ++ [.dataReturnIn fwBuffer]) = sent entries ++ [] :=
            recent_other rfl entries
          rw [turn_dataReturnIn, same, List.append_nil]
          exact ⟨captures, rfl⟩
      | signalReady =>
          have same : sent (entries ++ [.signalReady]) = sent entries ++ [] :=
            recent_other rfl entries
          rw [turn_signalReady, same, List.append_nil]
          exact ⟨captures, rfl⟩
      | reset =>
          have none : sent (entries ++ [.reset]) = [] := recent_reset rfl entries
          rw [turn_reset, none]
          exact ⟨captures_none _, rfl⟩

end ComSink
end CmdTlmTest
