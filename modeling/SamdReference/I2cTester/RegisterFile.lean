import SamdReference.I2cTester.RemoteAccess

/-!
# Reading back what was written

With a device of byte registers behind the bus, what the ground is told accounts for the
contents of that device: every read that is reported returned what the writes reported
before it left there. A write that failed, or was given up by the driver, may have stored
its byte or not, so a reported failure leaves open which.
-/

namespace CuriosityReference.I2cTester

open Reentrant (Machine Call)

variable {δ : Type}

theorem Registers.take_window (regs : Registers) (offset : UInt8) {m n : Nat} (h : m ≤ n) :
    (regs.window offset n).take m = regs.window offset m := by
  rw [window, window, ← List.map_take, List.take_range, Nat.min_eq_left h]

/-- Registers after a write that may have stored its byte. -/
def Registers.MayStore (regs : Registers) (offset value : UInt8) (after : Registers) : Prop :=
  after = regs ∨ after = Function.update regs offset value

/-- A device of byte registers: the first byte transmitted selects a register, a second
one is stored there, and bytes are read from the selected register on. A write that does
not end well may have stored its byte, a read stores nothing. -/
structure RegisterFile (D : Device δ) (registers : δ → Registers) : Prop where
  write : ∀ device addr offset value,
    (D.transfer device addr [offset, value] 0).status = .ok →
      registers (D.transfer device addr [offset, value] 0).device =
        Function.update (registers device) offset value
  fails : ∀ device addr offset value,
    (registers device).MayStore offset value
      (registers (D.transfer device addr [offset, value] 0).device)
  givenUp : ∀ device addr offset value,
    (registers device).MayStore offset value
      (registers (D.giveUp device addr [offset, value] 0))
  read : ∀ device addr offset n,
    registers (D.transfer device addr [offset] n).device = registers device ∧
      ((D.transfer device addr [offset] n).status = .ok →
        (D.transfer device addr [offset] n).received = (registers device).window offset n)
  unread : ∀ device addr offset n,
    registers (D.giveUp device addr [offset] n) = registers device

/-- What the registers may be after a report, when the ground asked for the given values
to be written. -/
def Report.Leaves (values : List UInt8) (regs : Registers) : Report → Registers → Prop
  | .wrote offset value, after => after = Function.update regs offset value
  | .read offset data, after => data = regs.window offset data.length ∧ after = regs
  | .failed _ offset, after =>
      after = regs ∨ ∃ value ∈ values, after = Function.update regs offset value
  | _, after => after = regs

theorem Report.leaves_failed {values : List UInt8} {regs after : Registers}
    {offset value : UInt8} (stored : regs.MayStore offset value after) (asked : value ∈ values)
    (status : I2cStatus) : (Report.failed status offset).Leaves values regs after :=
  stored.imp_right fun written => ⟨value, asked, written⟩

/-- The reports account for what became of the registers. -/
inductive Accounts (values : List UInt8) : Registers → List Report → Registers → Prop where
  | nil {regs} : Accounts values regs [] regs
  | cons {regs next after report reports} (leaves : report.Leaves values regs next)
      (rest : Accounts values next reports after) :
      Accounts values regs (report :: reports) after

namespace Accounts

variable {values : List UInt8} {regs next after : Registers}

theorem append {a b : List Report} (first : Accounts values regs a next)
    (second : Accounts values next b after) : Accounts values regs (a ++ b) after := by
  induction first with
  | nil => exact second
  | cons leaves _ ih => exact .cons leaves (ih second)

/-- An answer says nothing about the registers. -/
theorem answered (caller : Option Caller) (response : CmdResponse) :
    Accounts values regs (answered caller response) regs := by
  cases caller with
  | none => exact .nil
  | some c => exact .cons rfl .nil

/-- What an operation reported, and then its answer. -/
theorem reported (report : Report) (leaves : report.Leaves values regs after)
    (caller : Option Caller) (response : CmdResponse) :
    Accounts values regs (report :: I2cTester.answered caller response) after :=
  .cons leaves (answered caller response)

end Accounts

/-- The value a stimulus asks to be written. -/
def Stimulus.written? : Stimulus → Option UInt8
  | .command _ _ (.writeOnce value) => some value
  | _ => none

/-- A write under way was asked for. -/
def Remote.Asked (values : List UInt8) (r : Remote δ) : Prop :=
  ∀ op value, r.pending = some op → op.action = .write value → value ∈ values

section Steps

variable {D : Device δ} {registers : δ → Registers} {ports : Ports} {r : Remote δ}
variable {values : List UInt8}

/-- Asking for an operation leaves the device alone. -/
theorem accounts_begin (registers : δ → Registers) (caller : Option Caller) (action : Action) :
    Accounts values (registers r.device) (r.begin ports caller action).2
      (registers (r.begin ports caller action).1.device) := by
  cases pending : r.pending with
  | some op =>
      rw [Remote.begin_busy pending]
      exact .reported (.busy _ _) rfl caller _
  | none =>
      cases wired : ports.connected (action.state caller) with
      | true =>
          rw [Remote.begin_wired pending wired]
          exact .nil
      | false =>
          rw [Remote.begin_cut pending wired]
          exact .reported (.failed .openErr _) (.inl rfl) caller _

theorem asked_begin (asked : r.Asked values) (caller : Option Caller) {action : Action}
    (mentioned : ∀ value, action = .write value → value ∈ values) :
    (r.begin ports caller action).1.Asked values := by
  cases pending : r.pending with
  | some op =>
      rw [Remote.begin_busy pending]
      exact asked
  | none =>
      cases wired : ports.connected (action.state caller) with
      | true =>
          rw [Remote.begin_wired pending wired]
          intro op value started write
          obtain rfl := Option.some.inj started
          exact mentioned value write
      | false =>
          rw [Remote.begin_cut pending wired]
          exact asked

theorem accounts_command (registers : δ → Registers) (opCode cmdSeq : UInt32) (cmd : Command) :
    Accounts values (registers r.device) (r.command ports opCode cmdSeq cmd).2
      (registers (r.command ports opCode cmdSeq cmd).1.device) := by
  have told : ∀ response : CmdResponse,
      Accounts values (registers r.device) [.response opCode cmdSeq response]
        (registers r.device) := fun _ => .cons rfl .nil
  have rejected : ∀ response : CmdResponse,
      Accounts values (registers r.device) [.rejected, .response opCode cmdSeq response]
        (registers r.device) := fun response => .cons rfl (told response)
  cases cmd with
  | setAddress addr =>
      simp only [Remote.command]
      split
      · exact told _
      · exact rejected _
  | setRegister reg len =>
      simp only [Remote.command]
      split
      · exact told _
      · exact rejected _
  | readOnce =>
      simp only [Remote.command]
      split
      · exact accounts_begin registers _ _
      · exact rejected _
  | writeOnce value =>
      simp only [Remote.command]
      split
      · exact accounts_begin registers _ _
      · exact rejected _
  | setPolling enable => exact told _

theorem asked_command (asked : r.Asked values) (opCode cmdSeq : UInt32) {cmd : Command}
    (mentioned : ∀ value, cmd = .writeOnce value → value ∈ values) :
    (r.command ports opCode cmdSeq cmd).1.Asked values := by
  cases cmd with
  | setAddress addr =>
      simp only [Remote.command]
      split <;> exact asked
  | setRegister reg len =>
      simp only [Remote.command]
      split <;> exact asked
  | readOnce =>
      simp only [Remote.command]
      split
      · exact asked_begin asked _ (fun _ write => by cases write)
      · exact asked
  | writeOnce value =>
      simp only [Remote.command]
      split
      · refine asked_begin asked _ ?_
        intro _ write
        obtain rfl := Action.write.inj write
        exact mentioned value rfl
      · exact asked
  | setPolling enable => exact asked

/-- Carrying an operation out is a read or a write of the registers. -/
theorem accounts_serve (file : RegisterFile D registers) {op : Operation}
    (asked : ∀ value, op.action = .write value → value ∈ values) :
    Accounts values (registers r.device) (r.serve D op).2
      (registers (r.serve D op).1.device) := by
  cases action : op.action with
  | read n =>
      have carry : op.carry D r.device =
          D.transfer r.device op.address.toUInt32 [op.offset] n.toNat := by
        simp only [Operation.carry, Operation.wire, Operation.count, action]
      obtain ⟨kept, received⟩ := file.read r.device op.address.toUInt32 op.offset n.toNat
      rw [← carry] at kept received
      by_cases ok : (op.carry D r.device).status = .ok
      · rw [Remote.serve_read action ok, received ok]
        split_ifs with within
        · rw [UInt8.le_iff_toNat_le] at within
          rw [Registers.take_window _ _ within, Remote.finish, kept]
          have length : ((registers r.device).window op.offset r.length.toNat).length =
              r.length.toNat := by simp [Registers.window]
          refine .reported (.read _ _) ⟨?_, rfl⟩ op.caller _
          rw [length]
        · rw [Remote.finish, kept]
          exact .reported (.short _ _) rfl op.caller _
      · rw [Remote.serve_failed ok, Remote.finish, kept]
        exact .reported (.failed _ _) (.inl rfl) op.caller _
  | write value =>
      have carry : op.carry D r.device =
          D.transfer r.device op.address.toUInt32 [op.offset, value] 0 := by
        simp only [Operation.carry, Operation.wire, Operation.count, action]
      by_cases ok : (op.carry D r.device).status = .ok
      · have written := file.write r.device op.address.toUInt32 op.offset value
        rw [← carry] at written
        rw [Remote.serve_write action ok]
        exact .reported (.wrote _ _) (written ok) op.caller _
      · have stored := file.fails r.device op.address.toUInt32 op.offset value
        rw [← carry] at stored
        rw [Remote.serve_failed ok]
        exact .reported _ (Report.leaves_failed stored (asked value action) _) op.caller _

/-- An operation that is given up is at most the write it was. -/
theorem accounts_giveUp (file : RegisterFile D registers) {op : Operation}
    (asked : ∀ value, op.action = .write value → value ∈ values) (device : δ) :
    (Report.failed .otherErr op.offset).Leaves values (registers device)
      (registers (op.giveUp D device)) := by
  cases action : op.action with
  | read n =>
      have kept := file.unread device op.address.toUInt32 op.offset n.toNat
      refine .inl ?_
      simpa only [Operation.giveUp, Operation.wire, Operation.count, action] using kept
  | write value =>
      have stored := file.givenUp device op.address.toUInt32 op.offset value
      refine Report.leaves_failed ?_ (asked value action) _
      simpa only [Operation.giveUp, Operation.wire, Operation.count, action] using stored

/-- The reports of one step account for what it does to the registers. -/
theorem accounts_step (file : RegisterFile D registers) (asked : r.Asked values)
    (stimulus : Stimulus) :
    Accounts values (registers r.device) (r.step D ports stimulus).2
      (registers (r.step D ports stimulus).1.device) := by
  cases stimulus with
  | configure addr reg len =>
      simp only [Remote.step]
      split_ifs
      · exact .nil
      · exact .cons rfl .nil
      · exact .cons rfl .nil
  | tick =>
      simp only [Remote.step]
      split
      · exact accounts_begin registers _ _
      · exact .nil
  | command opCode cmdSeq cmd => exact accounts_command registers opCode cmdSeq cmd
  | serve =>
      simp only [Remote.step]
      cases pending : r.pending with
      | none => exact .nil
      | some op => exact accounts_serve file fun value => asked op value pending
  | giveUp =>
      simp only [Remote.step]
      cases pending : r.pending with
      | none => exact .nil
      | some op =>
          refine .reported (.failed .otherErr op.offset) ?_ op.caller _
          exact accounts_giveUp file (fun value => asked op value pending) r.device

theorem asked_finish (op : Operation) (device : δ) (report : Report) (success : Bool) :
    (r.finish op device report success).1.Asked values := by
  intro op' value started
  cases started

theorem asked_serve (op : Operation) : (r.serve D op).1.Asked values := by
  simp only [Remote.serve]
  split
  · exact asked_finish op _ _ _
  · split
    · split
      · exact asked_finish op _ _ _
      · exact asked_finish op _ _ _
    · exact asked_finish op _ _ _

/-- Only a `WRITE_ONCE` puts a write under way. -/
theorem asked_step (asked : r.Asked values) {stimulus : Stimulus}
    (mentioned : ∀ value, stimulus.written? = some value → value ∈ values) :
    (r.step D ports stimulus).1.Asked values := by
  cases stimulus with
  | configure addr reg len =>
      simp only [Remote.step]
      split_ifs <;> exact asked
  | tick =>
      simp only [Remote.step]
      split
      · exact asked_begin asked _ (fun _ write => by cases write)
      · exact asked
  | command opCode cmdSeq cmd =>
      refine asked_command asked opCode cmdSeq ?_
      rintro value rfl
      exact mentioned value rfl
  | serve =>
      simp only [Remote.step]
      cases pending : r.pending with
      | none => exact asked
      | some op => exact asked_serve op
  | giveUp =>
      simp only [Remote.step]
      cases pending : r.pending with
      | none => exact asked
      | some op => exact asked_finish op _ _ _

end Steps

/-- The reports of every run of the remote machine account for the registers. -/
theorem remote_accounts {D : Device δ} {registers : δ → Registers}
    (file : RegisterFile D registers) (ports : Ports) (device : δ) (stimuli : List Stimulus) :
    Accounts (stimuli.filterMap Stimulus.written?) (registers device)
      ((remote D ports device).run stimuli (remote D ports device).start).2
      (registers ((remote D ports device).run stimuli (remote D ports device).start).1.device) := by
  have start : (remote D ports device).start.Asked (stimuli.filterMap Stimulus.written?) := by
    intro op value started
    cases started
  have run := @Machine.run_induction _ _ _
    (fun r reports => r.Asked (stimuli.filterMap Stimulus.written?) ∧
      Accounts (stimuli.filterMap Stimulus.written?) (registers device) reports
        (registers r.device))
    (remote D ports device) stimuli
    (fun {r reports} stimulus member holds => by
      have mentioned : ∀ value, stimulus.written? = some value →
          value ∈ stimuli.filterMap Stimulus.written? :=
        fun value written => List.mem_filterMap.mpr ⟨stimulus, member, written⟩
      exact ⟨asked_step holds.1 mentioned, holds.2.append (accounts_step file holds.1 stimulus)⟩)
    (remote D ports device).start [] ⟨start, .nil⟩
  exact run.2

/-- Every run with a device of registers: the reports account for what became of its
contents between the start and the end. -/
theorem reports_account {D : Device δ} {registers : δ → Registers}
    (file : RegisterFile D registers) (ports : Ports) (device : δ) (calls : List (Call Input))
    {b : Bus δ} (contract : (bus D device).replay (execute ports calls).log = some b) :
    Accounts ((downlink.stimuli (execute ports calls).log).filterMap Stimulus.written?)
      (registers device) (downlink.reports (execute ports calls).log) (registers b.device) := by
  have matched := remote_matches D ports device calls contract
  rw [matched.reports, ← matched.related.device]
  exact remote_accounts file ports device _

theorem eeprom_registerFile (address : UInt32) : RegisterFile (eeprom address) id where
  write := by
    intro regs addr offset value
    by_cases other : addr = address <;> simp [eeprom, other]
  fails := by
    intro regs addr offset value
    by_cases other : addr = address <;> simp [eeprom, other, Registers.MayStore]
  givenUp := by
    intro regs addr offset value
    exact .inl rfl
  read := by
    intro regs addr offset n
    by_cases other : addr = address <;> simp [eeprom, other]
  unread := by
    intro regs addr offset n
    rfl

/-- Transfers given up before or after they took place keep a device of registers. -/
theorem RegisterFile.marked {D : Device δ} {registers : δ → Registers}
    (file : RegisterFile D registers) :
    RegisterFile D.marked fun device => registers device.1 where
  write device := file.write device.1
  fails device := file.fails device.1
  givenUp := by
    intro device addr offset value
    simp only [Device.marked]
    split
    · exact file.fails device.1 addr offset value
    · exact file.givenUp device.1 addr offset value
  read device := file.read device.1
  unread := by
    intro device addr offset n
    simp only [Device.marked]
    split
    · exact (file.read device.1 addr offset n).1
    · exact file.unread device.1 addr offset n

theorem reports_account_readBack :
    Accounts [0x7F, 0x2A] erased.1
      (downlink.reports (execute ⟨true, true⟩ writeReadBack).log)
      (Function.update (Function.update erased.1 0x10 0x7F) 0x11 0x2A) :=
  reports_account (eeprom_registerFile 0x50).marked ⟨true, true⟩ erased writeReadBack
    (b := ⟨(Function.update (Function.update erased.1 0x10 0x7F) 0x11 0x2A, []), []⟩) rfl

end CuriosityReference.I2cTester
