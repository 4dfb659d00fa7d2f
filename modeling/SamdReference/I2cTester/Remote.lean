import SamdReference.I2cTester.Bus
import SamdReference.I2cTester.Replies
import SamdReference.Reentrant.Refinement

/-!
# What the I2C tester is for

The component gives the ground access to the registers of a device on a bus that works
in the background. `remote` says so without buffers, descriptors, callbacks or nesting:
at most one operation is under way, it is fixed when it starts, and at some later time
it is carried out on the device or given up, and then the device may have seen it or
not. The component with any driver that keeps the contract of `bus` refines `remote`.

What the ground is told here are the events and the command responses. The telemetry
channels are left out, and so are two values of events: an error report carries the
address configured when it is made, not the operation's, and `InvalidConfig` carries the
configured address when the board is unconfigured.
-/

namespace CuriosityReference.I2cTester

open Reentrant (Machine Reading)

variable {δ : Type}

/-- Opcode and sequence number of the command to be answered. -/
abbrev Caller := UInt32 × UInt32

inductive Action where
  | read (length : UInt8)
  | write (value : UInt8)
  deriving DecidableEq

/-- An operation under way, as it was started. A tick waits for no answer. -/
structure Operation where
  caller : Option Caller
  address : UInt8
  offset : UInt8
  action : Action
  deriving DecidableEq

/-- The device and what is configured and under way on the board. -/
structure Remote (δ : Type) where
  device : δ
  address : UInt8
  offset : UInt8
  length : UInt8
  configured : Bool
  polling : Bool
  pending : Option Operation

/-- What the ground and the board do. The pending operation is carried out by `serve`
and given up by `giveUp`. -/
inductive Stimulus where
  | configure (i2cAddr regOffset readLen : UInt8)
  | tick
  | command (opCode cmdSeq : UInt32) (cmd : Command)
  | serve
  | giveUp

/-- What the ground is told. -/
inductive Report where
  | response (opCode cmdSeq : UInt32) (response : CmdResponse)
  | busy (op current : State)
  | rejected
  | failed (status : I2cStatus) (offset : UInt8)
  | short (expected actual : UInt8)
  | read (offset : UInt8) (data : List UInt8)
  | wrote (offset value : UInt8)
  deriving DecidableEq

/-- The state the component is in for an operation. -/
def Action.state (caller : Option Caller) : Action → State
  | .read _ => if caller.isSome then .readCmd else .readSched
  | .write _ => .writeCmd

/-- The bytes an operation transmits. -/
def Operation.wire (op : Operation) : List UInt8 :=
  match op.action with
  | .read _ => [op.offset]
  | .write value => [op.offset, value]

/-- How many bytes an operation then reads. -/
def Operation.count (op : Operation) : Nat :=
  match op.action with
  | .read n => n.toNat
  | .write _ => 0

/-- The transfer an operation makes. -/
def Operation.carry (D : Device δ) (op : Operation) (device : δ) : Outcome δ :=
  D.transfer device op.address.toUInt32 op.wire op.count

/-- The device after an operation was given up. -/
def Operation.giveUp (D : Device δ) (op : Operation) (device : δ) : δ :=
  D.giveUp device op.address.toUInt32 op.wire op.count

def answered (caller : Option Caller) (response : CmdResponse) : List Report :=
  caller.toList.map fun c => .response c.1 c.2 response

namespace Remote

variable (D : Device δ) (ports : Ports) (r : Remote δ)

/-- Start an operation with the current settings unless one is under way. -/
def begin (caller : Option Caller) (action : Action) : Remote δ × List Report :=
  match r.pending with
  | some op =>
      (r, .busy (action.state caller) (op.action.state op.caller) ::
        answered caller .executionError)
  | none =>
      if ports.connected (action.state caller) then
        ({ r with pending := some ⟨caller, r.address, r.offset, action⟩ }, [])
      else (r, .failed .openErr r.offset :: answered caller .executionError)

/-- End an operation: its outcome, and the answer it owes. -/
def finish (op : Operation) (device : δ) (report : Report) (success : Bool) :
    Remote δ × List Report :=
  ({ r with device, pending := none },
    report :: answered op.caller (if success then .ok else .executionError))

/-- Carry the operation out. A read hands over as many of the bytes it received as are
configured by now. -/
def serve (op : Operation) : Remote δ × List Report :=
  let done := op.carry D r.device
  if done.status ≠ .ok then r.finish op done.device (.failed done.status op.offset) false
  else
    match op.action with
    | .read n =>
        if r.length ≤ n then
          r.finish op done.device (.read op.offset (done.received.take r.length.toNat)) true
        else r.finish op done.device (.short r.length n) false
    | .write value => r.finish op done.device (.wrote op.offset value) true

def command (opCode cmdSeq : UInt32) : Command → Remote δ × List Report
  | .setAddress addr =>
      if LegalAddress addr then
        ({ r with address := addr }, [.response opCode cmdSeq .ok])
      else (r, [.rejected, .response opCode cmdSeq .validationError])
  | .setRegister regOffset readLen =>
      if LegalLength readLen then
        ({ r with offset := regOffset, length := readLen }, [.response opCode cmdSeq .ok])
      else (r, [.rejected, .response opCode cmdSeq .validationError])
  | .readOnce =>
      if r.configured then r.begin ports (some (opCode, cmdSeq)) (.read r.length)
      else (r, [.rejected, .response opCode cmdSeq .executionError])
  | .writeOnce value =>
      if r.configured then r.begin ports (some (opCode, cmdSeq)) (.write value)
      else (r, [.rejected, .response opCode cmdSeq .executionError])
  | .setPolling enable => ({ r with polling := enable }, [.response opCode cmdSeq .ok])

def step : Stimulus → Remote δ × List Report
  | .configure i2cAddr regOffset readLen =>
      if ¬LegalAddress i2cAddr then (r, [.rejected])
      else if ¬LegalLength readLen then (r, [.rejected])
      else
        ({ r with
          address := i2cAddr, offset := regOffset, length := readLen, configured := true }, [])
  | .tick =>
      if r.configured ∧ r.polling then r.begin ports none (.read r.length) else (r, [])
  | .command opCode cmdSeq cmd => r.command ports opCode cmdSeq cmd
  | .serve =>
      match r.pending with
      | none => (r, [])
      | some op => r.serve D op
  | .giveUp =>
      match r.pending with
      | none => (r, [])
      | some op => r.finish op (op.giveUp D r.device) (.failed .otherErr op.offset) false

section Begin

variable {D ports r} {caller : Option Caller} {action : Action}

theorem begin_busy {op : Operation} (pending : r.pending = some op) :
    r.begin ports caller action =
      (r, .busy (action.state caller) (op.action.state op.caller) ::
        answered caller .executionError) := by
  simp only [begin, pending]

theorem begin_wired (pending : r.pending = none)
    (wired : ports.connected (action.state caller) = true) :
    r.begin ports caller action =
      ({ r with pending := some ⟨caller, r.address, r.offset, action⟩ }, []) := by
  simp only [begin, pending, wired, if_true]

theorem begin_cut (pending : r.pending = none)
    (cut : ports.connected (action.state caller) = false) :
    r.begin ports caller action =
      (r, .failed .openErr r.offset :: answered caller .executionError) := by
  simp [begin, pending, cut]

end Begin

section Serve

variable {D r} {op : Operation}

theorem serve_failed (error : (op.carry D r.device).status ≠ .ok) :
    r.serve D op = r.finish op (op.carry D r.device).device
      (.failed (op.carry D r.device).status op.offset) false :=
  if_pos error

theorem serve_read {n : UInt8} (action : op.action = .read n)
    (ok : (op.carry D r.device).status = .ok) :
    r.serve D op =
      if r.length ≤ n then
        r.finish op (op.carry D r.device).device
          (.read op.offset ((op.carry D r.device).received.take r.length.toNat)) true
      else r.finish op (op.carry D r.device).device (.short r.length n) false := by
  rw [serve, action]
  exact if_neg (not_not.mpr ok)

theorem serve_write {value : UInt8} (action : op.action = .write value)
    (ok : (op.carry D r.device).status = .ok) :
    r.serve D op =
      r.finish op (op.carry D r.device).device (.wrote op.offset value) true := by
  rw [serve, action]
  exact if_neg (not_not.mpr ok)

end Serve

end Remote

/-- Remote access to a device: unconfigured, not polling, nothing under way. -/
def remote (D : Device δ) (ports : Ports) (device : δ) :
    Machine (Remote δ) Stimulus Report where
  start := ⟨device, minI2cAddress, 0, 1, false, false, none⟩
  step stimulus r := r.step D ports stimulus

/-- The bytes the ground unpacks from two data words. -/
def unpack (length : UInt8) (data0 data1 : UInt32) : List UInt8 :=
  (List.range length.toNat).map fun k => octet (if k < 4 then data0 else data1) (k % 4)

def Input.stimulus? : Input → Option Stimulus
  | .configure i2cAddr regOffset readLen => some (.configure i2cAddr regOffset readLen)
  | .schedIn => some .tick
  | .command opCode cmdSeq cmd => some (.command opCode cmdSeq cmd)
  | .writeReadCompleteIn _ _ status => some (if status = .otherErr then .giveUp else .serve)
  | .writeCompleteIn _ status => some (if status = .otherErr then .giveUp else .serve)
  | .storeWriteBuffer _ _ => none
  | .storeReadBuffer _ _ => none

def Note.report? : Note → Option Report
  | .event (.busy op current) => some (.busy op current)
  | .event (.i2cError status _ regOffset) => some (.failed status regOffset)
  | .event (.shortRead expected actual) => some (.short expected actual)
  | .event (.invalidConfig _) => some .rejected
  | .event (.readComplete regOffset length data0 data1) =>
      some (.read regOffset (unpack length data0 data1))
  | .event (.writeComplete regOffset value) => some (.wrote regOffset value)
  | _ => none

def Port.report? : Port → Option Report
  | .cmdResponse opCode cmdSeq response => some (.response opCode cmdSeq response)
  | _ => none

/-- Entries read as stimuli, and the downlink as reports. -/
def downlink : Reading Input Note Port Stimulus Report where
  stimulus := Input.stimulus?
  report
    | .note o => o.report?
    | .call o => o.report?

end CuriosityReference.I2cTester
