import SamdReference.I2cTester.Counters
import SamdReference.I2cTester.Packing
import SamdReference.Reentrant.Turns

/-!
# What one turn of the I2C tester can do

Each helper of the component has one equation giving its whole effect. They add
up to `TurnCase`, the list of everything an entry can do up to the call it ends
with: the notes, the call, the members left behind and the guards that held.
Every invariant of the component is derived from that list.
-/

namespace CuriosityReference.I2cTester

open Reentrant (Handler Proc Component World Turns Call)

/-- A general-purpose 7-bit address. -/
def LegalAddress (addr : UInt8) : Prop := minI2cAddress ≤ addr ∧ addr ≤ maxI2cAddress

/-- A read length that fills at most the two data channels. -/
def LegalLength (len : UInt8) : Prop := 1 ≤ len ∧ len ≤ maxReadBytes

instance (addr : UInt8) : Decidable (LegalAddress addr) :=
  inferInstanceAs (Decidable (_ ∧ _))

instance (len : UInt8) : Decidable (LegalLength len) :=
  inferInstanceAs (Decidable (_ ∧ _))

theorem not_legalAddress_iff {addr : UInt8} :
    ¬LegalAddress addr ↔ addr < minI2cAddress ∨ addr > maxI2cAddress := by
  simp only [LegalAddress, not_and_or, UInt8.not_le, gt_iff_lt]

theorem not_legalLength_iff {len : UInt8} :
    ¬LegalLength len ↔ len = 0 ∨ len > maxReadBytes := by
  have zero : ¬1 ≤ len ↔ len = 0 := by
    rw [UInt8.le_iff_toNat_le, ← UInt8.toNat_inj]
    change ¬1 ≤ len.toNat ↔ len.toNat = 0
    omega
  rw [LegalLength, not_and_or, zero, UInt8.not_le]

theorem LegalLength.toNat {len : UInt8} (h : LegalLength len) :
    1 ≤ len.toNat ∧ len.toNat ≤ 8 :=
  ⟨UInt8.le_iff_toNat_le.mp h.1, UInt8.le_iff_toNat_le.mp h.2⟩

/-- The settings every request is made from are in range. -/
structure Legal (t : I2cTester) : Prop where
  address : LegalAddress t.i2cAddress
  length : LegalLength t.readLength

/-- The answer to the initiator of the active transaction. -/
def reply (t : I2cTester) (success : Bool) : Option Port :=
  match t.state with
  | .readCmd | .writeCmd => some (.cmdResponse t.pendingOpCode t.pendingCmdSeq
      (if success then .ok else .executionError))
  | .readSched | .idle => none

def finished (t : I2cTester) : I2cTester := { t with state := .idle }

/-- Storage prepared for a write-read: receive bytes cleared, offset to transmit. -/
def loadRead (t : I2cTester) : I2cTester :=
  { t with
    readBuffer := cleared t.readBuffer t.readLength.toNat
    writeBuffer := setByte t.writeBuffer 0 t.regOffset }

/-- Storage prepared for a write of the offset and one byte. -/
def loadWrite (t : I2cTester) (value : UInt8) : I2cTester :=
  { t with writeBuffer := setByte (setByte t.writeBuffer 0 t.regOffset) 1 value }

/-- The descriptor of the first `n` transmit bytes. -/
def txBuf (n : Nat) : Buffer := ⟨.writeBuffer 0, n⟩

/-- The descriptor of the first `n` receive bytes. -/
def rxBuf (n : Nat) : Buffer := ⟨.readBuffer 0, n⟩

section Helpers

variable (t : I2cTester)

theorem finishOperation_apply (success : Bool) :
    finishOperation success t =
      match t.reply success with
      | some o => .call o t.finished (fun s => .ret () s)
      | none => .ret () t.finished := by
  cases h : t.state <;> simp [finishOperation, cmdResponseOut, reply, finished, h]

theorem beginOperation_apply (op : State) :
    beginOperation op t =
      if t.state = .idle then .ret true { t with state := op }
      else .note (.event (.busy op t.state))
        (.note (.tlmU32 .busyRejects (t.busyRejects + 1))
          (.ret false (t.bump .busyRejects))) := by
  by_cases h : t.state = .idle <;> simp [beginOperation, log, tlmWriteU32, h, bump]

theorem countError_apply (status : I2cStatus) (regOffset : UInt8) :
    countError status regOffset t =
      .note (.tlmU32 (errorCounter status).channel (t.counter (errorCounter status) + 1))
        (.note (.event (.i2cError status t.i2cAddress regOffset))
          (.ret () (t.bump (errorCounter status)))) := by
  cases status <;> rfl

theorem startRead_apply (ports : Ports) :
    startRead ports t =
      if LegalLength t.readLength then
        .note (.store .readBuffer) (.note (.store .writeBuffer)
          (if ports.i2cWriteReadOut then
            .call (.i2cWriteReadOut t.i2cAddress.toUInt32 (txBuf 1) (rxBuf t.readLength.toNat))
              t.loadRead (fun s => .ret () s)
          else
            .note (.tlmU32 .openErrors (t.openErrors + 1))
              (.note (.event (.i2cError .openErr t.i2cAddress t.regOffset))
                (finishOperation false (t.loadRead.bump .openErrors)))))
      else .halt .readLength t := by
  by_cases legal : LegalLength t.readLength
  · have bound : t.readLength.toNat ≤ 8 := legal.toNat.2
    have guard : t.readLength ≥ 1 ∧ t.readLength ≤ maxReadBytes := legal
    cases connected : ports.i2cWriteReadOut <;>
      simp [startRead, clearReadBuffer, storeWriteBuffer, tlmWriteU32, log, legal, guard, bound,
        connected, txBuf, rxBuf, loadRead, bump]
  · have guard : ¬(t.readLength ≥ 1 ∧ t.readLength ≤ maxReadBytes) := legal
    simp [startRead, legal, guard]

theorem startWrite_apply (ports : Ports) (value : UInt8) :
    startWrite ports value t =
      .note (.store .writeBuffer) (.note (.store .writeBuffer)
        (if ports.i2cWriteOut then
          .call (.i2cWriteOut t.i2cAddress.toUInt32 (txBuf 2)) (t.loadWrite value)
            (fun s => .ret () s)
        else
          .note (.tlmU32 .openErrors (t.openErrors + 1))
            (.note (.event (.i2cError .openErr t.i2cAddress t.regOffset))
              (finishOperation false ((t.loadWrite value).bump .openErrors))))) := by
  cases connected : ports.i2cWriteOut <;>
    simp [startWrite, storeWriteBuffer, tlmWriteU32, log, connected, txBuf, writeBufferSize,
      loadWrite, bump]

theorem reportSettings_apply :
    reportSettings t =
      .note (.tlmU8 .targetAddress t.i2cAddress)
        (.note (.tlmU8 .registerOffset t.regOffset)
          (.note (.tlmU8 .readLength t.readLength) (.ret () t))) := rfl

/-- The receive buffer read through its own pointer. -/
theorem index_readBuffer (i : Fin 8) :
    t.index? (.readBuffer 0) i.val = some (t.readBuffer.get i) := by
  simp [index?, Vector.get]

theorem handleReadComplete_short {data : Ptr} {len : Nat} (regOffset : UInt8)
    (short : len < t.readLength.toNat) :
    handleReadComplete data len regOffset t =
      .note (.tlmU32 .shortReads (t.shortReads + 1))
        (.note (.event (.shortRead t.readLength (UInt8.ofNat len)))
          (.ret false (t.bump .shortReads))) := by
  simp [handleReadComplete, tlmWriteU32, log, short, bump]

theorem handleReadComplete_packed {data : Ptr} {len : Nat} (regOffset : UInt8)
    (enough : ¬len < t.readLength.toNat) {words : Vector UInt32 2}
    (packed : packWords (t.index? data) t.readLength.toNat = some words) :
    handleReadComplete data len regOffset t =
      .note (.tlmU32 .readData0 (words.get 0)) (.note (.tlmU32 .readData1 (words.get 1))
        (.note (.tlmU8 .readLength t.readLength)
          (.note (.tlmU32 .txnCount (t.txnCount + 1))
            (.note (.event (.readComplete regOffset t.readLength (words.get 0) (words.get 1)))
              (.ret true (t.bump .txnCount)))))) := by
  simp [handleReadComplete, tlmWriteU32, tlmWriteU8, log, enough, packed, bump]

theorem handleReadComplete_unpacked {data : Ptr} {len : Nat} (regOffset : UInt8)
    (enough : ¬len < t.readLength.toNat)
    (unpacked : packWords (t.index? data) t.readLength.toNat = none) :
    handleReadComplete data len regOffset t = .halt .outOfBounds t := by
  simp [handleReadComplete, enough, unpacked]

end Helpers

/-- Opcode and sequence number of a command. -/
def Input.caller? : Input → Option (UInt32 × UInt32)
  | .command opCode cmdSeq _ => some (opCode, cmdSeq)
  | _ => none

/-- The response a handler gives to its own command; other entries get none. -/
def Input.answer (m : Input) (response : CmdResponse) : Option Port :=
  m.caller?.map fun caller => .cmdResponse caller.1 caller.2 response

/-- The transmit descriptor and status of a completion. -/
def Input.completion? : Input → Option (Buffer × I2cStatus)
  | .writeReadCompleteIn writeBuffer _ status => some (writeBuffer, status)
  | .writeCompleteIn buffer status => some (buffer, status)
  | _ => none

/-- The receive-pointer assertion, where there is one. -/
def Input.PassesPointer : Input → Prop
  | .writeReadCompleteIn _ readBuffer _ => readBuffer.data = .readBuffer 0
  | _ => True

/-- The operation an entry asks the component to begin, once it is configured and,
for a tick, polling. -/
def attempt? (t : I2cTester) : Input → Option State
  | .schedIn => if t.configLoaded ∧ t.polling then some .readSched else none
  | .command _ _ .readOnce => if t.configLoaded then some .readCmd else none
  | .command _ _ (.writeOnce _) => if t.configLoaded then some .writeCmd else none
  | _ => none

/-- The members when the request of an attempt goes out. -/
def prepared (t : I2cTester) : Input → I2cTester
  | .schedIn => { t with state := .readSched }.loadRead
  | .command opCode cmdSeq .readOnce =>
      { t with state := .readCmd, pendingOpCode := opCode, pendingCmdSeq := cmdSeq }.loadRead
  | .command opCode cmdSeq (.writeOnce value) =>
      { t with
        state := .writeCmd, pendingOpCode := opCode, pendingCmdSeq := cmdSeq
        writeValue := value }.loadWrite value
  | _ => t

/-- The request an operation makes from prepared members. -/
def request (t : I2cTester) : State → Port
  | .writeCmd => .i2cWriteOut t.i2cAddress.toUInt32 (txBuf 2)
  | _ => .i2cWriteReadOut t.i2cAddress.toUInt32 (txBuf 1) (rxBuf t.readLength.toNat)

/-- The stores that prepare the lent storage for an operation. -/
def preparing : State → List Note
  | .writeCmd => [.store .writeBuffer, .store .writeBuffer]
  | _ => [.store .readBuffer, .store .writeBuffer]

def Ports.connected (ports : Ports) : State → Bool
  | .writeCmd => ports.i2cWriteOut
  | _ => ports.i2cWriteReadOut

/-- The value an entry is refused for, and the response a command then gets. -/
def refusal? (t : I2cTester) : Input → Option (UInt8 × CmdResponse)
  | .configure addr _ len =>
      if ¬LegalAddress addr then some (addr, .validationError)
      else if ¬LegalLength len then some (len, .validationError) else none
  | .command _ _ (.setAddress addr) =>
      if ¬LegalAddress addr then some (addr, .validationError) else none
  | .command _ _ (.setRegister _ len) =>
      if ¬LegalLength len then some (len, .validationError) else none
  | .command _ _ .readOnce =>
      if t.configLoaded then none else some (t.i2cAddress, .executionError)
  | .command _ _ (.writeOnce _) =>
      if t.configLoaded then none else some (t.i2cAddress, .executionError)
  | _ => none

/-- The members after an entry that changes the settings. -/
def settings? (t : I2cTester) : Input → Option I2cTester
  | .configure addr reg len =>
      if LegalAddress addr ∧ LegalLength len then
        some { t with
          i2cAddress := addr, regOffset := reg, readLength := len, configLoaded := true }
      else none
  | .command _ _ (.setAddress addr) =>
      if LegalAddress addr then some { t with i2cAddress := addr } else none
  | .command _ _ (.setRegister reg len) =>
      if LegalLength len then some { t with regOffset := reg, readLength := len } else none
  | _ => none

/-- Everything one entry can do up to its call. -/
inductive TurnCase (ports : Ports) (t : I2cTester) :
    Input → Reentrant.Turn I2cTester Note Port Fault → Prop where
  | inactive (off : t.attempt? .schedIn = none) :
      TurnCase ports t .schedIn ⟨[], none, t, none⟩
  | refused {m value response} (refusal : t.refusal? m = some (value, response)) :
      TurnCase ports t m ⟨[.event (.invalidConfig value)], m.answer response, t, none⟩
  | settings {m u} (accepted : t.settings? m = some u) :
      TurnCase ports t m
        ⟨[.tlmU8 .targetAddress u.i2cAddress, .tlmU8 .registerOffset u.regOffset,
          .tlmU8 .readLength u.readLength], m.answer .ok, u, none⟩
  | polling {opCode cmdSeq enable} :
      TurnCase ports t (.command opCode cmdSeq (.setPolling enable))
        ⟨[], some (.cmdResponse opCode cmdSeq .ok), { t with polling := enable }, none⟩
  | busy {m op} (attempt : t.attempt? m = some op) (active : t.state ≠ .idle) :
      TurnCase ports t m
        ⟨[.event (.busy op t.state), .tlmU32 .busyRejects (t.busyRejects + 1)],
          m.answer .executionError, t.bump .busyRejects, none⟩
  | issued {m op} (attempt : t.attempt? m = some op) (idle : t.state = .idle)
      (wired : ports.connected op = true) :
      TurnCase ports t m
        ⟨preparing op, some ((t.prepared m).request op), t.prepared m, none⟩
  | unwired {m op} (attempt : t.attempt? m = some op) (idle : t.state = .idle)
      (cut : ports.connected op = false) :
      TurnCase ports t m
        ⟨preparing op ++ [.tlmU32 .openErrors (t.openErrors + 1),
          .event (.i2cError .openErr t.i2cAddress t.regOffset)],
          (t.prepared m).reply false, ((t.prepared m).bump .openErrors).finished, none⟩
  | stray {m} (pointer : ¬m.PassesPointer) :
      TurnCase ports t m ⟨[], none, t, some .receivePointer⟩
  | failed {m tx status} (completion : m.completion? = some (tx, status))
      (pointer : m.PassesPointer) (error : status ≠ .ok) :
      TurnCase ports t m
        ⟨[.tlmU32 (errorCounter status).channel (t.counter (errorCounter status) + 1),
          .event (.i2cError status t.i2cAddress (recoverRegOffset t tx))],
          t.reply false, (t.bump (errorCounter status)).finished, none⟩
  | shortRead {tx rx} (pointer : rx.data = .readBuffer 0)
      (short : rx.size < t.readLength.toNat) :
      TurnCase ports t (.writeReadCompleteIn tx rx .ok)
        ⟨[.tlmU32 .shortReads (t.shortReads + 1),
          .event (.shortRead t.readLength (UInt8.ofNat rx.size))],
          t.reply false, (t.bump .shortReads).finished, none⟩
  | readDone {tx rx words} (pointer : rx.data = .readBuffer 0)
      (enough : t.readLength.toNat ≤ rx.size)
      (packed : octets words = padded t.readBuffer t.readLength.toNat) :
      TurnCase ports t (.writeReadCompleteIn tx rx .ok)
        ⟨[.tlmU32 .readData0 (words.get 0), .tlmU32 .readData1 (words.get 1),
          .tlmU8 .readLength t.readLength, .tlmU32 .txnCount (t.txnCount + 1),
          .event (.readComplete (recoverRegOffset t tx) t.readLength (words.get 0) (words.get 1))],
          t.reply true, (t.bump .txnCount).finished, none⟩
  | writeDone {buffer} :
      TurnCase ports t (.writeCompleteIn buffer .ok)
        ⟨[.tlmU32 .txnCount (t.txnCount + 1),
          .event (.writeComplete (recoverRegOffset t buffer) t.writeValue)],
          t.reply true, (t.bump .txnCount).finished, none⟩
  | storedWrite {i byte} :
      TurnCase ports t (.storeWriteBuffer i byte)
        ⟨[], none, { t with writeBuffer := setByte t.writeBuffer i byte }, none⟩
  | storedRead {i byte} :
      TurnCase ports t (.storeReadBuffer i byte)
        ⟨[], none, { t with readBuffer := setByte t.readBuffer i byte }, none⟩

section Entries

variable (ports : Ports) (t : I2cTester)

@[simp] theorem finishOperation_turn (success : Bool) :
    (finishOperation success t).turn = ⟨[], t.reply success, t.finished, none⟩ := by
  rw [finishOperation_apply]
  cases t.reply success <;> rfl

@[simp] theorem finishOperation_callsLast (success : Bool) :
    (finishOperation success t).CallsLast := by
  rw [finishOperation_apply]
  cases t.reply success <;> simp

theorem configure_turn (addr reg len : UInt8) :
    TurnCase ports t (.configure addr reg len) (configure addr reg len t).turn := by
  by_cases address : LegalAddress addr
  · by_cases length : LegalLength len
    · have run : TurnCase ports t (.configure addr reg len) _ :=
        .settings (if_pos ⟨address, length⟩)
      simpa [configure, ← not_legalAddress_iff, ← not_legalLength_iff, address, length,
        reportSettings_apply, Input.answer, Input.caller?] using run
    · have run : TurnCase ports t (.configure addr reg len) _ :=
        .refused ((if_neg (not_not.mpr address)).trans (if_pos length))
      simpa [configure, log, ← not_legalAddress_iff, ← not_legalLength_iff, address, length,
        Input.answer, Input.caller?] using run
  · have run : TurnCase ports t (.configure addr reg len) _ := .refused (if_pos address)
    simpa [configure, log, ← not_legalAddress_iff, address, Input.answer, Input.caller?]
      using run

theorem setAddress_turn (opCode cmdSeq : UInt32) (addr : UInt8) :
    TurnCase ports t (.command opCode cmdSeq (.setAddress addr))
      (setAddressCmdHandler opCode cmdSeq addr t).turn := by
  by_cases address : LegalAddress addr
  · have run : TurnCase ports t (.command opCode cmdSeq (.setAddress addr)) _ :=
      .settings (if_pos address)
    simpa [setAddressCmdHandler, cmdResponseOut, ← not_legalAddress_iff, address,
      reportSettings_apply, Input.answer, Input.caller?] using run
  · have run : TurnCase ports t (.command opCode cmdSeq (.setAddress addr)) _ :=
      .refused (if_pos address)
    simpa [setAddressCmdHandler, cmdResponseOut, log, ← not_legalAddress_iff, address,
      Input.answer, Input.caller?] using run

theorem setRegister_turn (opCode cmdSeq : UInt32) (reg len : UInt8) :
    TurnCase ports t (.command opCode cmdSeq (.setRegister reg len))
      (setRegisterCmdHandler opCode cmdSeq reg len t).turn := by
  by_cases length : LegalLength len
  · have run : TurnCase ports t (.command opCode cmdSeq (.setRegister reg len)) _ :=
      .settings (if_pos length)
    simpa [setRegisterCmdHandler, cmdResponseOut, ← not_legalLength_iff, length,
      reportSettings_apply, Input.answer, Input.caller?] using run
  · have run : TurnCase ports t (.command opCode cmdSeq (.setRegister reg len)) _ :=
      .refused (if_pos length)
    simpa [setRegisterCmdHandler, cmdResponseOut, log, ← not_legalLength_iff, length,
      Input.answer, Input.caller?] using run

theorem schedIn_turn (legal : LegalLength t.readLength) :
    TurnCase ports t .schedIn (schedInHandler ports t).turn := by
  by_cases active : t.configLoaded ∧ t.polling
  · have attempt : t.attempt? .schedIn = some .readSched := if_pos active
    by_cases idle : t.state = .idle
    · cases wired : ports.i2cWriteReadOut with
      | true =>
          have run : TurnCase ports t .schedIn _ := .issued attempt idle wired
          simpa [schedInHandler, active, beginOperation_apply, idle, startRead_apply, legal, wired,
            preparing, prepared, request, loadRead] using run
      | false =>
          have run : TurnCase ports t .schedIn _ := .unwired attempt idle wired
          simpa [schedInHandler, active, beginOperation_apply, idle, startRead_apply, legal, wired,
            preparing, prepared, reply, loadRead] using run
    · have run : TurnCase ports t .schedIn _ := .busy attempt idle
      simpa [schedInHandler, active, beginOperation_apply, idle, Input.answer, Input.caller?]
        using run
  · have off : t.attempt? .schedIn = none := if_neg active
    have run : TurnCase ports t .schedIn _ := .inactive off
    have guard := not_and_or.mp active
    simp only [Bool.not_eq_true] at guard
    simpa [schedInHandler, guard] using run

theorem readOnce_turn (opCode cmdSeq : UInt32) (legal : LegalLength t.readLength) :
    TurnCase ports t (.command opCode cmdSeq .readOnce)
      (readOnceCmdHandler ports opCode cmdSeq t).turn := by
  cases configured : t.configLoaded with
  | false =>
      have refusal : t.refusal? (.command opCode cmdSeq .readOnce) =
          some (t.i2cAddress, .executionError) := by simp [refusal?, configured]
      have run : TurnCase ports t (.command opCode cmdSeq .readOnce) _ := .refused refusal
      simpa [readOnceCmdHandler, configured, log, cmdResponseOut, Input.answer, Input.caller?]
        using run
  | true =>
      have attempt : t.attempt? (.command opCode cmdSeq .readOnce) = some .readCmd :=
        if_pos configured
      by_cases idle : t.state = .idle
      · cases wired : ports.i2cWriteReadOut with
        | true =>
            have run : TurnCase ports t (.command opCode cmdSeq .readOnce) _ :=
              .issued attempt idle wired
            simpa [readOnceCmdHandler, configured, beginOperation_apply, idle, startRead_apply,
              legal, wired, preparing, prepared, request, loadRead] using run
        | false =>
            have run : TurnCase ports t (.command opCode cmdSeq .readOnce) _ :=
              .unwired attempt idle wired
            simpa [readOnceCmdHandler, configured, beginOperation_apply, idle, startRead_apply,
              legal, wired, preparing, prepared, reply, loadRead] using run
      · have run : TurnCase ports t (.command opCode cmdSeq .readOnce) _ := .busy attempt idle
        simpa [readOnceCmdHandler, configured, beginOperation_apply, idle, cmdResponseOut,
          Input.answer, Input.caller?] using run

theorem writeOnce_turn (opCode cmdSeq : UInt32) (value : UInt8) :
    TurnCase ports t (.command opCode cmdSeq (.writeOnce value))
      (writeOnceCmdHandler ports opCode cmdSeq value t).turn := by
  cases configured : t.configLoaded with
  | false =>
      have refusal : t.refusal? (.command opCode cmdSeq (.writeOnce value)) =
          some (t.i2cAddress, .executionError) := by simp [refusal?, configured]
      have run : TurnCase ports t (.command opCode cmdSeq (.writeOnce value)) _ :=
        .refused refusal
      simpa [writeOnceCmdHandler, configured, log, cmdResponseOut, Input.answer, Input.caller?]
        using run
  | true =>
      have attempt : t.attempt? (.command opCode cmdSeq (.writeOnce value)) =
          some .writeCmd := if_pos configured
      by_cases idle : t.state = .idle
      · cases wired : ports.i2cWriteOut with
        | true =>
            have run : TurnCase ports t (.command opCode cmdSeq (.writeOnce value)) _ :=
              .issued attempt idle wired
            simpa [writeOnceCmdHandler, configured, beginOperation_apply, idle, startWrite_apply,
              wired, preparing, prepared, request, loadWrite] using run
        | false =>
            have run : TurnCase ports t (.command opCode cmdSeq (.writeOnce value)) _ :=
              .unwired attempt idle wired
            simpa [writeOnceCmdHandler, configured, beginOperation_apply, idle, startWrite_apply,
              wired, preparing, prepared, reply, loadWrite] using run
      · have run : TurnCase ports t (.command opCode cmdSeq (.writeOnce value)) _ :=
          .busy attempt idle
        simpa [writeOnceCmdHandler, configured, beginOperation_apply, idle, cmdResponseOut,
          Input.answer, Input.caller?] using run

theorem reply_bump (c : Counter) (success : Bool) :
    (t.bump c).reply success = t.reply success := by
  simp only [reply, bump_state, bump_pendingOpCode, bump_pendingCmdSeq]

theorem writeReadComplete_turn (tx rx : Buffer) (status : I2cStatus)
    (legal : LegalLength t.readLength) :
    TurnCase ports t (.writeReadCompleteIn tx rx status)
      (writeReadCompleteInHandler tx rx status t).turn := by
  by_cases pointer : rx.data = .readBuffer 0
  · by_cases ok : status = .ok
    · subst ok
      by_cases short : rx.size < t.readLength.toNat
      · have run : TurnCase ports t (.writeReadCompleteIn tx rx .ok) _ := .shortRead pointer short
        simpa [writeReadCompleteInHandler, pointer, handleReadComplete_short t _ short,
          reply_bump] using run
      · obtain ⟨words, packed, spelled⟩ := packWords_octets t.index_readBuffer legal.toNat.2
        have run : TurnCase ports t (.writeReadCompleteIn tx rx .ok) _ :=
          .readDone pointer (Nat.le_of_not_lt short) spelled
        simpa [writeReadCompleteInHandler, pointer,
          handleReadComplete_packed t _ short packed, reply_bump] using run
    · have run : TurnCase ports t (.writeReadCompleteIn tx rx status) _ :=
        .failed rfl pointer ok
      simpa [writeReadCompleteInHandler, pointer, ok, countError_apply, reply_bump] using run
  · have run : TurnCase ports t (.writeReadCompleteIn tx rx status) _ := .stray pointer
    simpa [writeReadCompleteInHandler, pointer] using run

theorem writeComplete_turn (buffer : Buffer) (status : I2cStatus) :
    TurnCase ports t (.writeCompleteIn buffer status)
      (writeCompleteInHandler buffer status t).turn := by
  by_cases ok : status = .ok
  · subst ok
    have run : TurnCase ports t (.writeCompleteIn buffer .ok) _ := .writeDone
    have counted : { t with txnCount := t.txnCount + 1 } = t.bump .txnCount := rfl
    have value : (t.bump .txnCount).txnCount = t.txnCount + 1 := rfl
    simpa [writeCompleteInHandler, tlmWriteU32, log, counted, value, reply_bump] using run
  · have run : TurnCase ports t (.writeCompleteIn buffer status) _ := .failed rfl trivial ok
    simpa [writeCompleteInHandler, ok, countError_apply, reply_bump] using run

variable {t}

/-- Every entry from legal settings is one of the cases. -/
theorem component_turn (legal : t.Legal) (m : Input) :
    TurnCase ports t m ((component ports).turn m t) := by
  cases m with
  | configure addr reg len => exact configure_turn ports t addr reg len
  | schedIn => exact schedIn_turn ports t legal.length
  | command opCode cmdSeq cmd =>
      cases cmd with
      | setAddress addr => exact setAddress_turn ports t opCode cmdSeq addr
      | setRegister reg len => exact setRegister_turn ports t opCode cmdSeq reg len
      | readOnce => exact readOnce_turn ports t opCode cmdSeq legal.length
      | writeOnce value => exact writeOnce_turn ports t opCode cmdSeq value
      | setPolling enable => exact .polling
  | writeReadCompleteIn tx rx status =>
      exact writeReadComplete_turn ports t tx rx status legal.length
  | writeCompleteIn buffer status => exact writeComplete_turn ports t buffer status
  | storeWriteBuffer i byte => exact .storedWrite
  | storeReadBuffer i byte => exact .storedRead

theorem startRead_callsLast : (startRead ports t).CallsLast := by
  rw [startRead_apply]
  split
  · simp only [Proc.callsLast_note]
    split <;> simp
  · trivial

theorem startWrite_callsLast (value : UInt8) : (startWrite ports value t).CallsLast := by
  rw [startWrite_apply]
  simp only [Proc.callsLast_note]
  split <;> simp

theorem command_callsLast (opCode cmdSeq : UInt32) (cmd : Command) :
    (commandHandler ports opCode cmdSeq cmd t).CallsLast := by
  cases cmd with
  | setAddress addr =>
      simp only [commandHandler, setAddressCmdHandler]
      split <;> simp [log, cmdResponseOut, reportSettings_apply]
  | setRegister reg len =>
      simp only [commandHandler, setRegisterCmdHandler]
      split <;> simp [log, cmdResponseOut, reportSettings_apply]
  | readOnce =>
      cases configured : t.configLoaded with
      | false => simp [commandHandler, readOnceCmdHandler, configured, log, cmdResponseOut]
      | true =>
          by_cases idle : t.state = .idle
          · simp [commandHandler, readOnceCmdHandler, configured, beginOperation_apply, idle,
              startRead_callsLast]
          · simp [commandHandler, readOnceCmdHandler, configured, beginOperation_apply, idle,
              cmdResponseOut]
  | writeOnce value =>
      cases configured : t.configLoaded with
      | false => simp [commandHandler, writeOnceCmdHandler, configured, log, cmdResponseOut]
      | true =>
          by_cases idle : t.state = .idle
          · simp [commandHandler, writeOnceCmdHandler, configured, beginOperation_apply, idle,
              startWrite_callsLast]
          · simp [commandHandler, writeOnceCmdHandler, configured, beginOperation_apply, idle,
              cmdResponseOut]
  | setPolling enable => simp [commandHandler, setPollingCmdHandler, cmdResponseOut]

theorem handleReadComplete_callsLast (data : Ptr) (len : Nat) (regOffset : UInt8) :
    ((handleReadComplete data len regOffset t).bind finishOperation).CallsLast := by
  by_cases short : len < t.readLength.toNat
  · simp [handleReadComplete_short t _ short]
  · cases packed : packWords (t.index? data) t.readLength.toNat with
    | none => simp [handleReadComplete_unpacked t _ short packed]
    | some words => simp [handleReadComplete_packed t _ short packed]

/-- No handler does anything after the call it makes, whatever the members are. -/
theorem component_callsLast : (component ports).CallsLast := by
  intro m t
  cases m with
  | configure addr reg len =>
      by_cases address : addr < minI2cAddress ∨ addr > maxI2cAddress
      · simp [component, configure, address, log]
      · by_cases length : len = 0 ∨ len > maxReadBytes
        · simp [component, configure, address, length, log]
        · simp [component, configure, address, length, reportSettings_apply]
  | schedIn =>
      by_cases active : t.configLoaded = false ∨ t.polling = false
      · simp [component, schedInHandler, active]
      · by_cases idle : t.state = .idle
        · simp [component, schedInHandler, active, beginOperation_apply, idle, startRead_callsLast]
        · simp [component, schedInHandler, active, beginOperation_apply, idle]
  | command opCode cmdSeq cmd => exact command_callsLast ports opCode cmdSeq cmd
  | writeReadCompleteIn tx rx status =>
      by_cases pointer : rx.data = .readBuffer 0
      · by_cases ok : status = .ok
        · simp [component, writeReadCompleteInHandler, pointer, ok, handleReadComplete_callsLast]
        · simp [component, writeReadCompleteInHandler, pointer, ok, countError_apply]
      · simp [component, writeReadCompleteInHandler, pointer]
  | writeCompleteIn buffer status =>
      by_cases ok : status = .ok
      · simp [component, writeCompleteInHandler, ok, tlmWriteU32, log]
      · simp [component, writeCompleteInHandler, ok, countError_apply]
  | storeWriteBuffer i byte => simp [component]
  | storeReadBuffer i byte => simp [component]

end Entries

end CuriosityReference.I2cTester
