import SamdReference.I2cTester.Runs
import SamdReference.Reentrant.Rename

/-!
# Rejected requests

A rejection leaves a trace in one member only, the number of rejected attempts. That
member is written to its channel and read by nothing else, so the component behind a
rejection does the same as one that never saw it, up to that number.
-/

namespace CuriosityReference.I2cTester

open Reentrant (Component World Call Log Obs Output Proc Turn)

/-- The same members after `d` more rejected attempts. -/
def shift (d : UInt32) (t : I2cTester) : I2cTester :=
  { t with busyRejects := t.busyRejects + d }

/-- The same output after `d` more rejected attempts. -/
def Note.shift (d : UInt32) : Note → Note
  | .tlmU32 .busyRejects value => .tlmU32 .busyRejects (value + d)
  | n => n

section Shift

variable (ports : Ports) (d : UInt32) (t : I2cTester)

theorem next_shift : t.busyRejects + d + 1 = t.busyRejects + 1 + d := by
  ac_rfl

@[simp] theorem reply_shift (success : Bool) :
    (t.shift d).reply success = t.reply success := rfl

theorem startRead_shift :
    (startRead ports (t.shift d)).turn =
      (startRead ports t).turn.rename (shift d) (Note.shift d) := by
  rw [startRead_apply, startRead_apply]
  by_cases legal : LegalLength t.readLength
  · cases wired : ports.i2cWriteReadOut with
    | true => simp [shift, legal, Turn.rename, Note.shift, loadRead]
    | false =>
        simp [shift, legal, Turn.rename, Note.shift, loadRead, bump, reply, finished]
  · simp [shift, legal, Turn.rename]

theorem startWrite_shift (value : UInt8) :
    (startWrite ports value (t.shift d)).turn =
      (startWrite ports value t).turn.rename (shift d) (Note.shift d) := by
  rw [startWrite_apply, startWrite_apply]
  cases wired : ports.i2cWriteOut with
  | true => simp [shift, Turn.rename, Note.shift, loadWrite]
  | false => simp [shift, Turn.rename, Note.shift, loadWrite, bump, reply, finished]

theorem schedIn_shift :
    (schedInHandler ports (t.shift d)).turn =
      (schedInHandler ports t).turn.rename (shift d) (Note.shift d) := by
  by_cases active : t.configLoaded = false ∨ t.polling = false
  · simp [schedInHandler, active, shift, Turn.rename]
  · by_cases idle : t.state = .idle
    · have read := startRead_shift ports d { t with state := .readSched }
      simpa [schedInHandler, active, shift, beginOperation_apply, idle] using read
    · simp [schedInHandler, active, shift, beginOperation_apply, idle, Turn.rename,
        Note.shift, bump, next_shift]

theorem readOnce_shift (opCode cmdSeq : UInt32) :
    (readOnceCmdHandler ports opCode cmdSeq (t.shift d)).turn =
      (readOnceCmdHandler ports opCode cmdSeq t).turn.rename (shift d) (Note.shift d) := by
  cases configured : t.configLoaded with
  | false =>
      simp [readOnceCmdHandler, configured, shift, log, cmdResponseOut, Turn.rename, Note.shift]
  | true =>
      by_cases idle : t.state = .idle
      · have read := startRead_shift ports d
          { t with state := .readCmd, pendingOpCode := opCode, pendingCmdSeq := cmdSeq }
        simpa [readOnceCmdHandler, configured, shift, beginOperation_apply, idle] using read
      · simp [readOnceCmdHandler, configured, shift, beginOperation_apply, idle,
          cmdResponseOut, Turn.rename, Note.shift, bump, next_shift]

theorem writeOnce_shift (opCode cmdSeq : UInt32) (value : UInt8) :
    (writeOnceCmdHandler ports opCode cmdSeq value (t.shift d)).turn =
      (writeOnceCmdHandler ports opCode cmdSeq value t).turn.rename (shift d)
        (Note.shift d) := by
  cases configured : t.configLoaded with
  | false =>
      simp [writeOnceCmdHandler, configured, shift, log, cmdResponseOut, Turn.rename, Note.shift]
  | true =>
      by_cases idle : t.state = .idle
      · have write := startWrite_shift ports d
          { t with
            state := .writeCmd, pendingOpCode := opCode, pendingCmdSeq := cmdSeq
            writeValue := value } value
        simpa [writeOnceCmdHandler, configured, shift, beginOperation_apply, idle] using write
      · simp [writeOnceCmdHandler, configured, shift, beginOperation_apply, idle,
          cmdResponseOut, Turn.rename, Note.shift, bump, next_shift]

theorem configure_shift (addr reg len : UInt8) :
    (configure addr reg len (t.shift d)).turn =
      (configure addr reg len t).turn.rename (shift d) (Note.shift d) := by
  by_cases address : addr < minI2cAddress ∨ addr > maxI2cAddress
  · simp [configure, address, log, shift, Turn.rename, Note.shift]
  · by_cases length : len = 0 ∨ len > maxReadBytes
    · simp [configure, address, length, log, shift, Turn.rename, Note.shift]
    · simp [configure, address, length, reportSettings_apply, shift, Turn.rename, Note.shift]

theorem command_shift (opCode cmdSeq : UInt32) (cmd : Command) :
    (commandHandler ports opCode cmdSeq cmd (t.shift d)).turn =
      (commandHandler ports opCode cmdSeq cmd t).turn.rename (shift d) (Note.shift d) := by
  cases cmd with
  | setAddress addr =>
      by_cases address : addr < minI2cAddress ∨ addr > maxI2cAddress
      · simp [commandHandler, setAddressCmdHandler, address, log, cmdResponseOut, shift,
          Turn.rename, Note.shift]
      · simp [commandHandler, setAddressCmdHandler, address, reportSettings_apply,
          cmdResponseOut, shift, Turn.rename, Note.shift]
  | setRegister reg len =>
      by_cases length : len = 0 ∨ len > maxReadBytes
      · simp [commandHandler, setRegisterCmdHandler, length, log, cmdResponseOut, shift,
          Turn.rename, Note.shift]
      · simp [commandHandler, setRegisterCmdHandler, length, reportSettings_apply,
          cmdResponseOut, shift, Turn.rename, Note.shift]
  | readOnce => exact readOnce_shift ports d t opCode cmdSeq
  | writeOnce value => exact writeOnce_shift ports d t opCode cmdSeq value
  | setPolling enable => rfl

/-- An error is counted in another member, on another channel. -/
theorem errors_shift (status : I2cStatus) :
    (t.shift d).counter (errorCounter status) = t.counter (errorCounter status) ∧
      (t.shift d).bump (errorCounter status) = (t.bump (errorCounter status)).shift d ∧
      (∀ value, (Note.tlmU32 (errorCounter status).channel value).shift d =
        .tlmU32 (errorCounter status).channel value) ∧
      ∀ reg, (Note.event (.i2cError status t.i2cAddress reg)).shift d =
        .event (.i2cError status (t.shift d).i2cAddress reg) := by
  cases status <;> exact ⟨rfl, rfl, fun _ => rfl, fun _ => rfl⟩

@[simp] theorem finished_shift : (t.shift d).finished = t.finished.shift d := rfl

theorem handleReadComplete_shift (data : Ptr) (len : Nat) (regOffset : UInt8) :
    ((handleReadComplete data len regOffset (t.shift d)).bind finishOperation).turn =
      ((handleReadComplete data len regOffset t).bind finishOperation).turn.rename
        (shift d) (Note.shift d) := by
  by_cases short : len < t.readLength.toNat
  · rw [handleReadComplete_short t _ short, handleReadComplete_short (t.shift d) _ short]
    simp only [Proc.bind_note, Proc.bind_ret, Proc.turn_note, finishOperation_turn]
    rfl
  · cases packed : packWords (t.index? data) t.readLength.toNat with
    | none =>
        rw [handleReadComplete_unpacked t _ short packed,
          handleReadComplete_unpacked (t.shift d) _ short packed]
        rfl
    | some words =>
        rw [handleReadComplete_packed t _ short packed,
          handleReadComplete_packed (t.shift d) _ short packed]
        simp only [Proc.bind_note, Proc.bind_ret, Proc.turn_note, finishOperation_turn]
        rfl

@[simp] theorem recoverRegOffset_shift (tx : Buffer) :
    recoverRegOffset (t.shift d) tx = recoverRegOffset t tx := by
  obtain ⟨data, size⟩ := tx
  cases data <;> rfl

theorem writeReadComplete_shift (tx rx : Buffer) (status : I2cStatus) :
    (writeReadCompleteInHandler tx rx status (t.shift d)).turn =
      (writeReadCompleteInHandler tx rx status t).turn.rename (shift d) (Note.shift d) := by
  by_cases pointer : rx.data = .readBuffer 0
  · by_cases ok : status = .ok
    · simpa [writeReadCompleteInHandler, pointer, ok] using
        handleReadComplete_shift d t (.readBuffer 0) rx.size (recoverRegOffset t tx)
    · obtain ⟨count, bumped, channel, event⟩ := errors_shift d t status
      simp [writeReadCompleteInHandler, pointer, ok, countError_apply, count, bumped, channel,
        event, Turn.rename]
  · simp [writeReadCompleteInHandler, pointer, Turn.rename]

theorem writeComplete_shift (buffer : Buffer) (status : I2cStatus) :
    (writeCompleteInHandler buffer status (t.shift d)).turn =
      (writeCompleteInHandler buffer status t).turn.rename (shift d) (Note.shift d) := by
  by_cases ok : status = .ok
  · have offset := recoverRegOffset_shift d t buffer
    rw [shift] at offset
    simp [writeCompleteInHandler, ok, tlmWriteU32, log, Turn.rename, Note.shift, shift, offset,
      reply, finished]
  · obtain ⟨count, bumped, channel, event⟩ := errors_shift d t status
    simp [writeCompleteInHandler, ok, countError_apply, count, bumped, channel, event,
      Turn.rename]

end Shift

/-- The component counts rejections and does nothing else with the count. -/
theorem component_renames (ports : Ports) (d : UInt32) :
    (component ports).Renames (shift d) (Note.shift d) := by
  intro m t
  cases m with
  | configure addr reg len => exact configure_shift d t addr reg len
  | schedIn => exact schedIn_shift ports d t
  | command opCode cmdSeq cmd => exact command_shift ports d t opCode cmdSeq cmd
  | writeReadCompleteIn tx rx status => exact writeReadComplete_shift d t tx rx status
  | writeCompleteIn buffer status => exact writeComplete_shift d t buffer status
  | storeWriteBuffer i byte => rfl
  | storeReadBuffer i byte => rfl

/-- The entries the component rejects. -/
def Rejects (t : I2cTester) : Input → Prop
  | .configure addr _ len => ¬LegalAddress addr ∨ ¬LegalLength len
  | .schedIn => t.state ≠ .idle ∨ t.configLoaded = false ∨ t.polling = false
  | .command _ _ (.setAddress addr) => ¬LegalAddress addr
  | .command _ _ (.setRegister _ len) => ¬LegalLength len
  | .command _ _ .readOnce => t.state ≠ .idle ∨ t.configLoaded = false
  | .command _ _ (.writeOnce _) => t.state ≠ .idle ∨ t.configLoaded = false
  | _ => False

/-- What a rejection tells, the response a command then gets, and how many rejections it
adds to the count: nothing for a tick that finds nothing to do, the value an entry is
refused for, or the operation asked for and the new count. -/
inductive Rejection (t : I2cTester) : Input → List Note → CmdResponse → UInt32 → Prop where
  | ignored {response} (off : t.attempt? .schedIn = none) : Rejection t .schedIn [] response 0
  | invalidConfig {m value response} (refusal : t.refusal? m = some (value, response)) :
      Rejection t m [.event (.invalidConfig value)] response 0
  | busy {m op} (attempt : t.attempt? m = some op) (active : t.state ≠ .idle) :
      Rejection t m [.event (.busy op t.state), .tlmU32 .busyRejects (t.busyRejects + 1)]
        .executionError 1

section Rejected

variable {ports : Ports} {t : I2cTester} {m : Input} {e : Effect}

theorem shift_zero (t : I2cTester) : t.shift 0 = t := by
  rw [shift, UInt32.add_zero]

theorem completion_of_rejected (rejected : t.Rejects m) : m.completion? = none := by
  cases m with
  | writeReadCompleteIn => cases rejected
  | writeCompleteIn => cases rejected
  | _ => rfl

/-- An idle component accepts what it is asked for. -/
theorem busy_of_rejected {op : State} (rejected : t.Rejects m)
    (attempt : t.attempt? m = some op) : t.state ≠ .idle := by
  obtain ⟨configured, ⟨rfl, _, polling⟩ | ⟨_, _, rfl, _⟩ | ⟨_, _, _, rfl, _⟩⟩ :=
    attempt_cases attempt
  · rcases rejected with busy | unconfigured | silent
    · exact busy
    · simp [configured] at unconfigured
    · simp [polling] at silent
  · exact rejected.resolve_right (by simp [configured])
  · exact rejected.resolve_right (by simp [configured])

theorem settings_of_rejected (rejected : t.Rejects m) : t.settings? m = none := by
  cases accepted : t.settings? m with
  | none => rfl
  | some u =>
      obtain ⟨_, _, _, rfl, address, length, _⟩ | ⟨_, _, _, rfl, address, _⟩ |
        ⟨_, _, _, _, rfl, length, _⟩ := settings_cases accepted
      · exact absurd rejected (not_or.mpr ⟨not_not.mpr address, not_not.mpr length⟩)
      · exact absurd address rejected
      · exact absurd length rejected

theorem refusal_not_ok {value : UInt8} {response : CmdResponse}
    (refusal : t.refusal? m = some (value, response)) : response ≠ .ok := by
  rintro rfl
  cases m with
  | configure addr reg len =>
      simp only [refusal?] at refusal
      split_ifs at refusal <;> simp at refusal
  | command opCode cmdSeq cmd =>
      cases cmd with
      | setPolling => cases refusal
      | _ => simp [refusal?] at refusal
  | _ => cases refusal

/-- A rejected entry leaves everything but the count as it was and emits only its
rejection. -/
theorem TurnCase.rejected (turn : TurnCase ports t m e) (rejected : t.Rejects m) :
    ∃ notes response d, Rejection t m notes response d ∧ response ≠ .ok ∧
      e = ⟨notes, m.answer response, t.shift d, none⟩ := by
  have entry := completion_of_rejected rejected
  cases turn with
  | inactive off =>
      refine ⟨[], .executionError, 0, .ignored off, CmdResponse.noConfusion, ?_⟩
      rw [shift_zero]
      rfl
  | @refused _ value response refusal =>
      refine ⟨_, response, 0, .invalidConfig refusal, refusal_not_ok refusal, ?_⟩
      rw [shift_zero]
  | settings accepted =>
      rw [settings_of_rejected rejected] at accepted
      cases accepted
  | polling => cases rejected
  | busy attempt active =>
      exact ⟨_, _, 1, .busy attempt active, CmdResponse.noConfusion, rfl⟩
  | issued attempt idle => exact absurd idle (busy_of_rejected rejected attempt)
  | unwired attempt idle => exact absurd idle (busy_of_rejected rejected attempt)
  | stray pointer => exact absurd (passes_of_entry entry) pointer
  | failed completion =>
      rw [entry] at completion
      cases completion
  | shortRead => cases rejected
  | readDone => cases rejected
  | writeDone => cases rejected
  | storedWrite => cases rejected
  | storedRead => cases rejected

end Rejected

/-- Inserting a rejected call anywhere into a run, between two calls, with nobody reacting
to its response: the rest of the log, the final members and the fault are those of the run
without it, up to the number `d` of rejections it added to the count: one if it was
rejected as busy, else none. The call itself outputs its own rejection, with the value or
the operation it was rejected for, and to a command one response that is not OK. -/
theorem rejection_invisible (ports : Ports) (before after : List (Call Input)) {m : Input}
    (running : (execute ports before).fault = none)
    (rejected : (execute ports before).state.Rejects m) :
    ∃ own rest d notes response,
      (execute ports (before ++ after)).log = (execute ports before).log ++ rest ∧
      (execute ports (before ++ .mk m [] :: after)).log =
        (execute ports before).log ++ own ++ rest.map (Obs.rename (shift d) (Note.shift d)) ∧
      (execute ports (before ++ .mk m [] :: after)).state =
        shift d (execute ports (before ++ after)).state ∧
      (execute ports (before ++ .mk m [] :: after)).fault =
        (execute ports (before ++ after)).fault ∧
      Log.outputs own = notes.map .note ++ ((m.answer response).map .call).toList ∧
      Rejection (execute ports before).state m notes response d ∧ response ≠ .ok := by
  have last := component_callsLast ports
  obtain ⟨notes, response, d, rejection, refused, turn⟩ :=
    (component_turn ports (execute_legal ports before) m).rejected rejected
  obtain ⟨state, fault, own, log, outputs⟩ := Component.run_leaf last m running
  rw [turn] at state fault outputs
  have follows : World.Follows (shift d) (Note.shift d) (execute ports before).log
      ((component ports).run (.mk m []) (execute ports before)).log (execute ports before)
      ((component ports).run (.mk m []) (execute ports before)) :=
    .of_logs state (fault.trans running.symm)
  have ends := (component_renames ports d).runAll last after follows
  obtain ⟨rest, log₀, log₁⟩ := ends.log
  rw [log] at log₁
  have without : execute ports (before ++ after) =
      (component ports).runAll after (execute ports before) :=
    Component.runAll_append before after _
  have within : execute ports (before ++ .mk m [] :: after) = (component ports).runAll after
      ((component ports).run (.mk m []) (execute ports before)) :=
    Component.runAll_append before (.mk m [] :: after) _
  rw [without, within]
  exact ⟨own, rest, d, notes, response, log₀, log₁, ends.state, ends.fault, outputs, rejection,
    refused⟩

/-- A read that is in flight. -/
def readInFlight : List (Call Input) :=
  [.mk (.configure 0x50 0x10 2) [], .mk (.command 1 7 .readOnce) []]

theorem rejection_invisible_busy : ∃ d,
    (execute ⟨true, true⟩ (readInFlight ++ .mk (.command 2 8 (.writeOnce 0xAA)) [] ::
        [.mk (.writeReadCompleteIn (txBuf 1) (rxBuf 2) .ok) []])).state =
      shift d (execute ⟨true, true⟩ (readInFlight ++
        [.mk (.writeReadCompleteIn (txBuf 1) (rxBuf 2) .ok) []])).state := by
  have running : (execute ⟨true, true⟩ readInFlight).fault = none := by decide
  obtain ⟨_, _, d, _, _, _, _, state, _⟩ := rejection_invisible ⟨true, true⟩ readInFlight
    [.mk (.writeReadCompleteIn (txBuf 1) (rxBuf 2) .ok) []] running
    (m := .command 2 8 (.writeOnce 0xAA)) (.inl (by decide))
  exact ⟨d, state⟩

end CuriosityReference.I2cTester
