import SamdReference.Reentrant.Handler

/-!
# The I2C tester's data

Members, ports, events and channels of `CuriosityReference::I2cTester`. Both
buffers are storage of the component that the driver borrows: it transmits out of
`writeBuffer` and stores into `readBuffer` behind a descriptor, so stores by the
environment are inputs here and stores by the component are outputs.

Timestamps are left out. No function of the component branches on one.
-/

namespace CuriosityReference

namespace I2cTester

/-- Transaction the component is currently executing. -/
inductive State where
  | idle
  | readSched
  | readCmd
  | writeCmd
  deriving DecidableEq, Repr

/-- Outcome of a request as the driver reports it. The status crosses a driver
boundary, so a raw value outside the enumeration is possible. -/
inductive I2cStatus where
  | ok
  | addressErr
  | writeErr
  | readErr
  | openErr
  | otherErr
  | unrecognized (raw : Int)
  deriving DecidableEq, Repr

inductive CmdResponse where
  | ok
  | validationError
  | executionError
  deriving DecidableEq, Repr

def minI2cAddress : UInt8 := 0x08
def maxI2cAddress : UInt8 := 0x77
def maxReadBytes : UInt8 := 8
def writeBufferSize : Nat := 2

-- Named instances, so that an index literal is the same term in every module.
instance twoBytes : @NeZero Nat (@Zero.ofOfNat0 Nat (instOfNatNat 0)) 2 := ⟨by decide⟩
instance eightBytes : @NeZero Nat (@Zero.ofOfNat0 Nat (instOfNatNat 0)) 8 := ⟨by decide⟩

/-- `buffer[i] = byte`. -/
def setByte {n : Nat} (buffer : Vector UInt8 n) (i : Fin n) (byte : UInt8) : Vector UInt8 n :=
  buffer.set i byte

@[simp] theorem get_setByte {n : Nat} (buffer : Vector UInt8 n) (i j : Fin n) (byte : UInt8) :
    (setByte buffer i byte).get j = if i = j then byte else buffer.get j := by
  change (buffer.set i byte)[j.val] = if i = j then byte else buffer[j.val]
  rw [Vector.getElem_set]
  simp only [Fin.ext_iff]

theorem ofFn_get {α : Type} {n : Nat} (f : Fin n → α) (i : Fin n) :
    (Vector.ofFn f).get i = f i := by
  change (Vector.ofFn f)[i.val] = f i
  rw [Vector.getElem_ofFn]

/-- Two buffers with the same bytes are the same. -/
theorem buffer_ext {n : Nat} {a b : Vector UInt8 n} (h : ∀ i : Fin n, a.get i = b.get i) :
    a = b := by
  apply Vector.ext
  intro i hi
  exact h ⟨i, hi⟩

/-- The component's storage that descriptors lend to the driver. -/
inductive Storage where
  | writeBuffer
  | readBuffer
  deriving DecidableEq, Repr

/-- The address in a descriptor: a byte of the component's own storage, or some
readable byte outside it. -/
inductive Ptr where
  | writeBuffer (i : Fin 2)
  | readBuffer (i : Fin 8)
  | foreign (byte : UInt8)
  deriving DecidableEq, Repr

/-- `Fw::Buffer`: a non-owning descriptor. Its size has the platform's width, and
the component only compares it, so it is a natural number. -/
structure Buffer where
  data : Ptr
  size : Nat
  deriving DecidableEq, Repr

end I2cTester

/-- The members of the component. -/
structure I2cTester where
  state : I2cTester.State
  pendingOpCode : UInt32
  pendingCmdSeq : UInt32
  configLoaded : Bool
  polling : Bool
  i2cAddress : UInt8
  regOffset : UInt8
  readLength : UInt8
  writeValue : UInt8
  writeBuffer : Vector UInt8 2
  readBuffer : Vector UInt8 8
  txnCount : UInt32
  busyRejects : UInt32
  addressErrors : UInt32
  writeErrors : UInt32
  readErrors : UInt32
  openErrors : UInt32
  otherErrors : UInt32
  shortReads : UInt32
  deriving DecidableEq

namespace I2cTester

/-- The constructor: idle, unconfigured, and silent until `SET_POLLING`. -/
def init : I2cTester where
  state := .idle
  pendingOpCode := 0
  pendingCmdSeq := 0
  configLoaded := false
  polling := false
  i2cAddress := minI2cAddress
  regOffset := 0
  readLength := 1
  writeValue := 0
  writeBuffer := Vector.replicate 2 0
  readBuffer := Vector.replicate 8 0
  txnCount := 0
  busyRejects := 0
  addressErrors := 0
  writeErrors := 0
  readErrors := 0
  openErrors := 0
  otherErrors := 0
  shortReads := 0

inductive Command where
  | setAddress (addr : UInt8)
  | setRegister (regOffset readLen : UInt8)
  | readOnce
  | writeOnce (value : UInt8)
  | setPolling (enable : Bool)
  deriving DecidableEq, Repr

/-- Everything the environment can do to the component: its entry points, and a
store into the storage lent to the driver. -/
inductive Input where
  | configure (i2cAddr regOffset readLen : UInt8)
  | schedIn
  | command (opCode cmdSeq : UInt32) (cmd : Command)
  | writeReadCompleteIn (writeBuffer readBuffer : Buffer) (status : I2cStatus)
  | writeCompleteIn (buffer : Buffer) (status : I2cStatus)
  | storeWriteBuffer (i : Fin 2) (byte : UInt8)
  | storeReadBuffer (i : Fin 8) (byte : UInt8)
  deriving DecidableEq, Repr

inductive Event where
  | busy (op current : State)
  | i2cError (status : I2cStatus) (addr regOffset : UInt8)
  | shortRead (expected actual : UInt8)
  | invalidConfig (value : UInt8)
  | readComplete (regOffset length : UInt8) (data0 data1 : UInt32)
  | writeComplete (regOffset value : UInt8)
  deriving DecidableEq, Repr

/-- The `U32` telemetry channels. -/
inductive U32Channel where
  | readData0
  | readData1
  | txnCount
  | busyRejects
  | addressErrors
  | writeErrors
  | readErrors
  | openErrors
  | otherErrors
  | shortReads
  deriving DecidableEq, Repr

/-- The `U8` telemetry channels. -/
inductive U8Channel where
  | readLength
  | targetAddress
  | registerOffset
  deriving DecidableEq, Repr

/-- Outputs that let nothing else run. A store into lent storage is one of them:
the driver's DMA engine sees it. -/
inductive Note where
  | event (e : Event)
  | tlmU32 (channel : U32Channel) (value : UInt32)
  | tlmU8 (channel : U8Channel) (value : UInt8)
  | store (storage : Storage)
  deriving DecidableEq, Repr

/-- Output ports whose receiver may enter the component before they return. -/
inductive Port where
  | i2cWriteReadOut (addr : UInt32) (txBuf rxBuf : Buffer)
  | i2cWriteOut (addr : UInt32) (wrBuf : Buffer)
  | cmdResponse (opCode cmdSeq : UInt32) (response : CmdResponse)
  deriving DecidableEq, Repr

/-- What would stop the board: the two assertions, and an access out of bounds. -/
inductive Fault where
  | receivePointer
  | readLength
  | outOfBounds
  deriving DecidableEq, Repr

/-- Which request ports the topology connected. -/
structure Ports where
  i2cWriteReadOut : Bool
  i2cWriteOut : Bool
  deriving DecidableEq, Repr

/-- A member function of the component. -/
abbrev Method := Reentrant.Handler I2cTester Note Port Fault

/-- The byte a pointer designates. -/
def deref (t : I2cTester) : Ptr → UInt8
  | .writeBuffer i => t.writeBuffer.get i
  | .readBuffer i => t.readBuffer.get i
  | .foreign byte => byte

/-- `data[i]` when it lies inside the storage `data` points into. -/
def index? (t : I2cTester) : Ptr → Nat → Option UInt8
  | .writeBuffer k, i => t.writeBuffer[k.val + i]?
  | .readBuffer k, i => t.readBuffer[k.val + i]?
  | .foreign byte, i => if i = 0 then some byte else none

end I2cTester
end CuriosityReference
