import SamdReference.I2cTester.Basic
import SamdReference.Reentrant.Component

/-!
# The I2C tester's handlers

One definition for each function of `I2cTester.cpp`, in the order of its outputs
and stores. `ports` says which of the two request ports are connected.
-/

namespace CuriosityReference.I2cTester

open Reentrant (Handler Component)

def log (e : Event) : Method Unit := Handler.note (.event e)

def tlmWriteU32 (channel : U32Channel) (value : UInt32) : Method Unit :=
  Handler.note (.tlmU32 channel value)

def tlmWriteU8 (channel : U8Channel) (value : UInt8) : Method Unit :=
  Handler.note (.tlmU8 channel value)

def cmdResponseOut (opCode cmdSeq : UInt32) (response : CmdResponse) : Method Unit :=
  Handler.call (.cmdResponse opCode cmdSeq response)

/-- `this->m_writeBuffer[i] = byte`. -/
def storeWriteBuffer (i : Fin 2) (byte : UInt8) : Method Unit := do
  modify fun t => { t with writeBuffer := setByte t.writeBuffer i byte }
  Handler.note (.store .writeBuffer)

/-- The receive buffer with its first `n` bytes zero. -/
def cleared (buffer : Vector UInt8 8) (n : Nat) : Vector UInt8 8 :=
  Vector.ofFn fun i => if i.val < n then 0 else buffer.get i

theorem get_cleared (buffer : Vector UInt8 8) (n : Nat) (i : Fin 8) :
    (cleared buffer n).get i = if i.val < n then 0 else buffer.get i := by
  rw [cleared, ofFn_get]

/-- `std::memset(this->m_readBuffer, 0, n)`. -/
def clearReadBuffer (n : Nat) : Method Unit :=
  if n ≤ 8 then do
    modify fun t => { t with readBuffer := cleared t.readBuffer n }
    Handler.note (.store .readBuffer)
  else
    Handler.halt .outOfBounds

def reportSettings : Method Unit := do
  let t ← get
  tlmWriteU8 .targetAddress t.i2cAddress
  tlmWriteU8 .registerOffset t.regOffset
  tlmWriteU8 .readLength t.readLength

def configure (i2cAddr regOffset readLen : UInt8) : Method Unit := do
  if i2cAddr < minI2cAddress ∨ i2cAddr > maxI2cAddress then
    log (.invalidConfig i2cAddr)
    return
  if readLen = 0 ∨ readLen > maxReadBytes then
    log (.invalidConfig readLen)
    return
  modify fun t => { t with i2cAddress := i2cAddr }
  modify fun t => { t with regOffset := regOffset }
  modify fun t => { t with readLength := readLen }
  modify fun t => { t with configLoaded := true }
  reportSettings

def beginOperation (op : State) : Method Bool := do
  let t ← get
  if t.state ≠ .idle then
    log (.busy op t.state)
    modify fun t => { t with busyRejects := t.busyRejects + 1 }
    tlmWriteU32 .busyRejects (← get).busyRejects
    return false
  modify fun t => { t with state := op }
  return true

def finishOperation (success : Bool) : Method Unit := do
  let cmdStatus := if success then CmdResponse.ok else CmdResponse.executionError
  -- The reply may start a new transaction, so it has to find the component idle.
  let state := (← get).state
  modify fun t => { t with state := .idle }
  match state with
  | .readCmd => cmdResponseOut (← get).pendingOpCode (← get).pendingCmdSeq cmdStatus
  | .writeCmd => cmdResponseOut (← get).pendingOpCode (← get).pendingCmdSeq cmdStatus
  | .readSched => return
  | .idle => return

def startRead (ports : Ports) : Method Unit := do
  let t ← get
  Handler.assert (t.readLength ≥ 1 ∧ t.readLength ≤ maxReadBytes) .readLength
  clearReadBuffer t.readLength.toNat
  storeWriteBuffer 0 t.regOffset
  let txBuf : Buffer := ⟨.writeBuffer 0, 1⟩
  let rxBuf : Buffer := ⟨.readBuffer 0, t.readLength.toNat⟩
  if !ports.i2cWriteReadOut then
    modify fun t => { t with openErrors := t.openErrors + 1 }
    tlmWriteU32 .openErrors (← get).openErrors
    log (.i2cError .openErr t.i2cAddress t.regOffset)
    finishOperation false
    return
  Handler.call (.i2cWriteReadOut t.i2cAddress.toUInt32 txBuf rxBuf)

def startWrite (ports : Ports) (value : UInt8) : Method Unit := do
  let t ← get
  storeWriteBuffer 0 t.regOffset
  storeWriteBuffer 1 value
  let wrBuf : Buffer := ⟨.writeBuffer 0, writeBufferSize⟩
  if !ports.i2cWriteOut then
    modify fun t => { t with openErrors := t.openErrors + 1 }
    tlmWriteU32 .openErrors (← get).openErrors
    log (.i2cError .openErr t.i2cAddress t.regOffset)
    finishOperation false
    return
  Handler.call (.i2cWriteOut t.i2cAddress.toUInt32 wrBuf)

def schedInHandler (ports : Ports) : Method Unit := do
  let t ← get
  if !t.configLoaded || !t.polling then
    return
  if !(← beginOperation .readSched) then
    return
  startRead ports

def setAddressCmdHandler (opCode cmdSeq : UInt32) (addr : UInt8) : Method Unit := do
  if addr < minI2cAddress ∨ addr > maxI2cAddress then
    log (.invalidConfig addr)
    cmdResponseOut opCode cmdSeq .validationError
    return
  modify fun t => { t with i2cAddress := addr }
  reportSettings
  cmdResponseOut opCode cmdSeq .ok

def setRegisterCmdHandler (opCode cmdSeq : UInt32) (regOffset readLen : UInt8) :
    Method Unit := do
  if readLen = 0 ∨ readLen > maxReadBytes then
    log (.invalidConfig readLen)
    cmdResponseOut opCode cmdSeq .validationError
    return
  modify fun t => { t with regOffset := regOffset }
  modify fun t => { t with readLength := readLen }
  reportSettings
  cmdResponseOut opCode cmdSeq .ok

def readOnceCmdHandler (ports : Ports) (opCode cmdSeq : UInt32) : Method Unit := do
  let t ← get
  if !t.configLoaded then
    log (.invalidConfig t.i2cAddress)
    cmdResponseOut opCode cmdSeq .executionError
    return
  if !(← beginOperation .readCmd) then
    cmdResponseOut opCode cmdSeq .executionError
    return
  -- A busy driver re-enters from inside `startRead`, so the reply target goes first.
  modify fun t => { t with pendingOpCode := opCode }
  modify fun t => { t with pendingCmdSeq := cmdSeq }
  startRead ports

def writeOnceCmdHandler (ports : Ports) (opCode cmdSeq : UInt32) (value : UInt8) :
    Method Unit := do
  let t ← get
  if !t.configLoaded then
    log (.invalidConfig t.i2cAddress)
    cmdResponseOut opCode cmdSeq .executionError
    return
  if !(← beginOperation .writeCmd) then
    cmdResponseOut opCode cmdSeq .executionError
    return
  modify fun t => { t with pendingOpCode := opCode }
  modify fun t => { t with pendingCmdSeq := cmdSeq }
  modify fun t => { t with writeValue := value }
  startWrite ports value

def setPollingCmdHandler (opCode cmdSeq : UInt32) (enable : Bool) : Method Unit := do
  modify fun t => { t with polling := enable }
  cmdResponseOut opCode cmdSeq .ok

def recoverRegOffset (t : I2cTester) (writeBuffer : Buffer) : UInt8 :=
  if writeBuffer.size < 1 then t.regOffset else t.deref writeBuffer.data

/-- `words[i / 4] |= static_cast<U32>(byte) << shift`, if `i / 4` is in bounds. -/
def packByte (words : Vector UInt32 2) (i : Nat) (byte : UInt8) :
    Option (Vector UInt32 2) :=
  let shift := 24 - 8 * (i % 4)
  if h : i / 4 < 2 then
    some (words.set (i / 4) (words[i / 4] ||| byte.toUInt32 <<< UInt32.ofNat shift))
  else
    none

/-- The packing loop over `data[0], .., data[n - 1]`. -/
def packWords (data : Nat → Option UInt8) (n : Nat) : Option (Vector UInt32 2) :=
  (List.range n).foldlM (fun words i => do packByte words i (← data i))
    (Vector.replicate 2 0)

def handleReadComplete (data : Ptr) (len : Nat) (regOffset : UInt8) : Method Bool := do
  let t ← get
  if len < t.readLength.toNat then
    modify fun t => { t with shortReads := t.shortReads + 1 }
    tlmWriteU32 .shortReads (← get).shortReads
    log (.shortRead t.readLength (UInt8.ofNat len))
    return false
  match packWords (t.index? data) t.readLength.toNat with
  | none => Handler.halt .outOfBounds
  | some words =>
    tlmWriteU32 .readData0 (words.get 0)
    tlmWriteU32 .readData1 (words.get 1)
    tlmWriteU8 .readLength t.readLength
    modify fun t => { t with txnCount := t.txnCount + 1 }
    tlmWriteU32 .txnCount (← get).txnCount
    log (.readComplete regOffset t.readLength (words.get 0) (words.get 1))
    return true

def countError (status : I2cStatus) (regOffset : UInt8) : Method Unit := do
  match status with
  | .addressErr =>
    modify fun t => { t with addressErrors := t.addressErrors + 1 }
    tlmWriteU32 .addressErrors (← get).addressErrors
  | .writeErr =>
    modify fun t => { t with writeErrors := t.writeErrors + 1 }
    tlmWriteU32 .writeErrors (← get).writeErrors
  | .readErr =>
    modify fun t => { t with readErrors := t.readErrors + 1 }
    tlmWriteU32 .readErrors (← get).readErrors
  | .openErr =>
    modify fun t => { t with openErrors := t.openErrors + 1 }
    tlmWriteU32 .openErrors (← get).openErrors
  | _ =>
    -- `I2C_OTHER_ERR` and every unrecognized status share one bucket.
    modify fun t => { t with otherErrors := t.otherErrors + 1 }
    tlmWriteU32 .otherErrors (← get).otherErrors
  log (.i2cError status (← get).i2cAddress regOffset)

def writeReadCompleteInHandler (writeBuffer readBuffer : Buffer) (status : I2cStatus) :
    Method Unit := do
  let data := readBuffer.data
  let len := readBuffer.size
  Handler.assert (data = .readBuffer 0) .receivePointer
  let regOffset := recoverRegOffset (← get) writeBuffer
  if status ≠ .ok then
    countError status regOffset
    finishOperation false
    return
  finishOperation (← handleReadComplete data len regOffset)

def writeCompleteInHandler (buffer : Buffer) (status : I2cStatus) : Method Unit := do
  let regOffset := recoverRegOffset (← get) buffer
  if status ≠ .ok then
    countError status regOffset
    finishOperation false
    return
  modify fun t => { t with txnCount := t.txnCount + 1 }
  tlmWriteU32 .txnCount (← get).txnCount
  log (.writeComplete regOffset (← get).writeValue)
  finishOperation true

def commandHandler (ports : Ports) (opCode cmdSeq : UInt32) : Command → Method Unit
  | .setAddress addr => setAddressCmdHandler opCode cmdSeq addr
  | .setRegister regOffset readLen => setRegisterCmdHandler opCode cmdSeq regOffset readLen
  | .readOnce => readOnceCmdHandler ports opCode cmdSeq
  | .writeOnce value => writeOnceCmdHandler ports opCode cmdSeq value
  | .setPolling enable => setPollingCmdHandler opCode cmdSeq enable

/-- The component behind its ports. A store by the environment runs no code of it. -/
def component (ports : Ports) : Component I2cTester Input Note Port Fault where
  handle
    | .configure i2cAddr regOffset readLen => configure i2cAddr regOffset readLen
    | .schedIn => schedInHandler ports
    | .command opCode cmdSeq cmd => commandHandler ports opCode cmdSeq cmd
    | .writeReadCompleteIn writeBuffer readBuffer status =>
        writeReadCompleteInHandler writeBuffer readBuffer status
    | .writeCompleteIn buffer status => writeCompleteInHandler buffer status
    | .storeWriteBuffer i byte =>
        modify fun t => { t with writeBuffer := setByte t.writeBuffer i byte }
    | .storeReadBuffer i byte =>
        modify fun t => { t with readBuffer := setByte t.readBuffer i byte }

end CuriosityReference.I2cTester
