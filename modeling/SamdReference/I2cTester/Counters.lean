import SamdReference.I2cTester.Handlers

/-!
# Counters by name

The component keeps eight counters in eight members. `Counter` names them, so
that incrementing one and reading another is a single pair of definitions.
-/

namespace CuriosityReference.I2cTester

inductive Counter where
  | txnCount
  | busyRejects
  | addressErrors
  | writeErrors
  | readErrors
  | openErrors
  | otherErrors
  | shortReads
  deriving DecidableEq, Repr

/-- The channel that reports a counter. -/
def Counter.channel : Counter → U32Channel
  | .txnCount => .txnCount
  | .busyRejects => .busyRejects
  | .addressErrors => .addressErrors
  | .writeErrors => .writeErrors
  | .readErrors => .readErrors
  | .openErrors => .openErrors
  | .otherErrors => .otherErrors
  | .shortReads => .shortReads

theorem Counter.channel_injective {c d : Counter} (h : c.channel = d.channel) : c = d := by
  cases c <;> cases d <;> simp_all [channel]

def counter (t : I2cTester) : Counter → UInt32
  | .txnCount => t.txnCount
  | .busyRejects => t.busyRejects
  | .addressErrors => t.addressErrors
  | .writeErrors => t.writeErrors
  | .readErrors => t.readErrors
  | .openErrors => t.openErrors
  | .otherErrors => t.otherErrors
  | .shortReads => t.shortReads

def bump (t : I2cTester) : Counter → I2cTester
  | .txnCount => { t with txnCount := t.txnCount + 1 }
  | .busyRejects => { t with busyRejects := t.busyRejects + 1 }
  | .addressErrors => { t with addressErrors := t.addressErrors + 1 }
  | .writeErrors => { t with writeErrors := t.writeErrors + 1 }
  | .readErrors => { t with readErrors := t.readErrors + 1 }
  | .openErrors => { t with openErrors := t.openErrors + 1 }
  | .otherErrors => { t with otherErrors := t.otherErrors + 1 }
  | .shortReads => { t with shortReads := t.shortReads + 1 }

/-- The counter a non-OK status belongs to. -/
def errorCounter : I2cStatus → Counter
  | .addressErr => .addressErrors
  | .writeErr => .writeErrors
  | .readErr => .readErrors
  | .openErr => .openErrors
  | _ => .otherErrors

section Bump

variable (t : I2cTester) (c : Counter)

theorem counter_bump (d : Counter) :
    (t.bump c).counter d = if d = c then t.counter c + 1 else t.counter d := by
  cases c <;> cases d <;> rfl

@[simp] theorem bump_state : (t.bump c).state = t.state := by cases c <;> rfl

@[simp] theorem bump_pendingOpCode : (t.bump c).pendingOpCode = t.pendingOpCode := by
  cases c <;> rfl

@[simp] theorem bump_pendingCmdSeq : (t.bump c).pendingCmdSeq = t.pendingCmdSeq := by
  cases c <;> rfl

@[simp] theorem bump_configLoaded : (t.bump c).configLoaded = t.configLoaded := by
  cases c <;> rfl

@[simp] theorem bump_polling : (t.bump c).polling = t.polling := by cases c <;> rfl

@[simp] theorem bump_i2cAddress : (t.bump c).i2cAddress = t.i2cAddress := by cases c <;> rfl

@[simp] theorem bump_regOffset : (t.bump c).regOffset = t.regOffset := by cases c <;> rfl

@[simp] theorem bump_readLength : (t.bump c).readLength = t.readLength := by cases c <;> rfl

@[simp] theorem bump_writeValue : (t.bump c).writeValue = t.writeValue := by cases c <;> rfl

@[simp] theorem bump_writeBuffer : (t.bump c).writeBuffer = t.writeBuffer := by
  cases c <;> rfl

@[simp] theorem bump_readBuffer : (t.bump c).readBuffer = t.readBuffer := by cases c <;> rfl

end Bump

end CuriosityReference.I2cTester
