import SamdReference.I2cTester.Driver
import SamdReference.I2cTester.Replies
import SamdReference.I2cTester.Requests

/-!
# Getting out of a transaction

The component has no timeout. A transaction, once begun, stays until a completion
arrives, whatever else does, and the first completion ends it and answers its
initiator. One completion is also all it takes to use the component again, whatever
the environment did before.
-/

namespace CuriosityReference.I2cTester

open Reentrant (Call Component Log Obs)

/-- The members that identify the active transaction. -/
structure SameTransaction (t u : I2cTester) : Prop where
  state : u.state = t.state
  opCode : u.pendingOpCode = t.pendingOpCode
  cmdSeq : u.pendingCmdSeq = t.pendingCmdSeq
  value : u.writeValue = t.writeValue

/-- No completion arrived in a stretch of history. -/
def Uncompleted (log : History) : Prop :=
  ∀ m t, Obs.recv m t ∈ log → m.completion? = none

/-- No request was made in a stretch of history. -/
def Quiet (log : History) : Prop :=
  ∀ o t, Obs.call o t ∈ log → o.request? = none

section Turns

variable {ports : Ports} {t : I2cTester} {m : Input} {e : Effect}

theorem SameTransaction.refl (t : I2cTester) : SameTransaction t t := ⟨rfl, rfl, rfl, rfl⟩

theorem SameTransaction.trans {u v : I2cTester} (first : SameTransaction t u)
    (second : SameTransaction u v) : SameTransaction t v where
  state := second.state.trans first.state
  opCode := second.opCode.trans first.opCode
  cmdSeq := second.cmdSeq.trans first.cmdSeq
  value := second.value.trans first.value

/-- The same transaction is answered the same way. -/
theorem SameTransaction.reply {u : I2cTester} (same : SameTransaction t u) (success : Bool) :
    u.reply success = t.reply success := by
  simp only [I2cTester.reply, same.state, same.opCode, same.cmdSeq]

/-- What anything but a completion does to a busy component: the transaction stays, no
request goes out, and a command is answered at once. -/
theorem TurnCase.waits (turn : TurnCase ports t m e) (entry : m.completion? = none)
    (busy : t.state ≠ .idle) :
    e.fault = none ∧ SameTransaction t e.state ∧ e.exit.bind Port.request? = none ∧
      (e.exit.bind Port.answered?).toList = m.caller?.toList := by
  cases turn with
  | inactive => exact ⟨rfl, .refl t, rfl, rfl⟩
  | refused refusal => exact ⟨rfl, .refl t, answer_request _, by simp⟩
  | @settings _ u accepted =>
      have same : SameTransaction t u := by
        rw [settings_only accepted]
        exact ⟨rfl, rfl, rfl, rfl⟩
      exact ⟨rfl, same, answer_request _, by simp⟩
  | polling => exact ⟨rfl, ⟨rfl, rfl, rfl, rfl⟩, rfl, rfl⟩
  | busy attempt =>
      refine ⟨rfl, ⟨?_, ?_, ?_, ?_⟩, answer_request _, by simp⟩
      · exact bump_state t _
      · exact bump_pendingOpCode t _
      · exact bump_pendingCmdSeq t _
      · exact bump_writeValue t _
  | issued _ idle => exact absurd idle busy
  | unwired _ idle => exact absurd idle busy
  | stray pointer => exact absurd (passes_of_entry entry) pointer
  | failed completion => simp [entry] at completion
  | shortRead => cases entry
  | readDone => cases entry
  | writeDone => cases entry
  | storedWrite => exact ⟨rfl, ⟨rfl, rfl, rfl, rfl⟩, rfl, rfl⟩
  | storedRead => exact ⟨rfl, ⟨rfl, rfl, rfl, rfl⟩, rfl, rfl⟩

/-- What a completion does: the component is idle and has replied for the transaction. -/
theorem TurnCase.ends (turn : TurnCase ports t m e) (completion : m.completion?.isSome)
    (pointer : m.PassesPointer) :
    e.fault = none ∧ e.state.state = .idle ∧ ∃ success, e.exit = t.reply success := by
  cases turn.of_completion completion with
  | stray fails => exact absurd pointer fails
  | failed => exact ⟨rfl, rfl, false, rfl⟩
  | shortRead => exact ⟨rfl, rfl, false, rfl⟩
  | readDone => exact ⟨rfl, rfl, true, rfl⟩
  | writeDone => exact ⟨rfl, rfl, true, rfl⟩

end Turns

section Waiting

variable {a b : History}

theorem Uncompleted.of_append (h : Uncompleted (a ++ b)) : Uncompleted a :=
  fun m t member => h m t (List.mem_append_left _ member)

/-- The component since a transaction was seen active: as long as no completion arrived,
that transaction still is, the bus was left alone, and every command got its response. -/
structure Waits (t : I2cTester) (w : Situation) : Prop where
  running : w.fault = none
  same : SameTransaction t w.state
  quiet : Quiet w.log
  answered : responses w.log = commands w.log

/-- Waiting goes on with every turn that is no completion. -/
theorem Waits.turn {ports : Ports} {t u : I2cTester} {log : History} {m : Input} {e : Effect}
    (waits : Waits t ⟨u, log, none⟩) (busy : t.state ≠ .idle) (turn : TurnCase ports u m e)
    (entry : m.completion? = none) :
    Waits t ⟨e.state, log ++ .recv m u :: e.log, e.fault⟩ := by
  have active : u.state ≠ .idle := by
    rw [waits.same.state]
    exact busy
  obtain ⟨running, same, silent, answered⟩ := turn.waits entry active
  constructor
  · exact running
  · exact waits.same.trans same
  · intro o v member
    rcases List.mem_append.mp member with before | own
    · exact waits.quiet o v before
    · have made : .call o v ∈ (e.log : History) := by simpa using own
      obtain ⟨exit, _⟩ := Reentrant.Turn.call_mem_log.mp made
      simpa [exit] using silent
  · rw [responses_turn, commands_turn, answered]
    exact congrArg (· ++ m.caller?.toList) waits.answered

theorem Waits.back {t u : I2cTester} {log : History} (waits : Waits t ⟨u, log, none⟩)
    (o : Port) : Waits t ⟨u, log ++ [.back o], none⟩ where
  running := rfl
  same := waits.same
  quiet := by
    intro p v member
    exact waits.quiet p v (by simpa using member)
  answered := by
    rw [responses_back, commands_back]
    exact waits.answered

/-- Any stretch of history from a busy component without a completion is spent waiting. -/
theorem waits_invariant (ports : Ports) {t : I2cTester} (busy : t.state ≠ .idle) :
    (component ports).Invariant fun w =>
      w.state.Legal ∧ (Uncompleted w.log → Waits t w) where
  step := by
    rintro ⟨u, log, fault⟩ running ⟨legal, waits⟩ m
    cases running
    have turn := component_turn ports legal m
    refine ⟨turn.legal legal, ?_⟩
    intro uncompleted
    have entry : m.completion? = none := uncompleted m u (by simp [Component.step])
    exact (waits (Uncompleted.of_append uncompleted)).turn busy turn entry
  back := by
    rintro ⟨u, log, fault⟩ running ⟨legal, waits⟩ o
    cases running
    refine ⟨legal, ?_⟩
    intro uncompleted
    exact (waits (Uncompleted.of_append uncompleted)).back o

end Waiting

theorem execute_append (ports : Ports) (calls more : List (Call Input)) :
    execute ports (calls ++ more) = (component ports).runAll more (execute ports calls) :=
  Component.runAll_append calls more _

/-- In every run, in any environment, an active transaction lasts exactly until a
completion passes the receive-pointer assertion. Until then, whatever arrives, the
transaction and its stored reply stay, nothing is requested, and every command is
answered; the first completion then leaves the component idle and ends with the stored
reply. -/
theorem busy_until_completion (ports : Ports) (calls : List (Call Input))
    (running : (execute ports calls).fault = none)
    (busy : (execute ports calls).state.state ≠ .idle) (more : List (Call Input)) :
    ∃ rest, (execute ports (calls ++ more)).log = (execute ports calls).log ++ rest ∧
      (Uncompleted rest →
        (execute ports (calls ++ more)).fault = none ∧
          SameTransaction (execute ports calls).state (execute ports (calls ++ more)).state ∧
          Quiet rest ∧ responses rest = commands rest) ∧
      ∀ pre m t post, rest = pre ++ .recv m t :: post → Uncompleted pre →
        m.completion?.isSome → m.PassesPointer →
          Log.ownOutputs post = ((component ports).turn m t).outputs ∧
          ((component ports).turn m t).state.state = .idle ∧
          ∃ success, ((component ports).turn m t).exit =
            (execute ports calls).state.reply success := by
  obtain ⟨state, fault, log⟩ :=
    Component.runAll_resume (component_callsLast ports) more running
  have initial : Waits (execute ports calls).state (.start (execute ports calls).state) :=
    { running := rfl, same := .refl _, quiet := fun _ _ member => (nomatch member)
      answered := rfl }
  have invariant := waits_invariant ports busy
  have legal := execute_legal ports calls
  obtain ⟨_, waits⟩ := invariant.runAll (component_callsLast ports) more
    (w := .start (execute ports calls).state) ⟨legal, fun _ => initial⟩
  have turns := invariant.turns (component_callsLast ports)
    (s := (execute ports calls).state) ⟨legal, fun _ => initial⟩ more
  rw [execute_append]
  refine ⟨_, log, ?_, ?_⟩
  · intro uncompleted
    obtain ⟨goesOn, same, quiet, answered⟩ := waits uncompleted
    rw [state, fault]
    exact ⟨goesOn, same, quiet, answered⟩
  · intro pre m t post split uncompleted completion pointer
    obtain ⟨⟨legal, before⟩, _⟩ := turns.recv_split split
    have same := (before uncompleted).same
    obtain ⟨_, idle, success, reply⟩ :=
      (component_turn ports legal m).ends completion pointer
    refine ⟨turns.ownOutputs_eq split, idle, success, ?_⟩
    rw [reply]
    exact same.reply success

/-- A read on the bus, in the deployment's settings. -/
def startedRead : List (Call Input) :=
  [.mk (.configure 0x50 0x00 4) [], .mk (.command 1 7 .readOnce) []]

/-- Its completion with an error. -/
def failure : Input := .writeReadCompleteIn (txBuf 1) (rxBuf 4) .readErr

theorem busy_until_completion_failure :
    ((component ⟨true, true⟩).turn failure (execute ⟨true, true⟩ startedRead).state).state.state =
        .idle ∧
      ∃ success : Bool, ((component ⟨true, true⟩).turn failure
        (execute ⟨true, true⟩ startedRead).state).exit =
          some (.cmdResponse 1 7 (if success then .ok else .executionError)) := by
  obtain ⟨rest, log, _, ends⟩ := busy_until_completion ⟨true, true⟩ startedRead rfl
    (by decide) [.mk failure []]
  have own : rest = (execute ⟨true, true⟩ (startedRead ++ [.mk failure []])).log.drop
      (execute ⟨true, true⟩ startedRead).log.length := by
    rw [log, List.drop_left]
  have first : rest.head? = some (.recv failure (execute ⟨true, true⟩ startedRead).state) := by
    rw [own]
    decide
  obtain ⟨post, here⟩ := List.head?_eq_some_iff.mp first
  exact (ends [] failure _ post here (fun _ _ member => nomatch member) rfl rfl).2

section Again

variable (ports : Ports)

/-- A situation in which the component may begin an operation. -/
structure Ready (w : Situation) : Prop where
  running : w.fault = none
  legal : w.state.Legal
  idle : w.state.state = .idle

theorem Ready.of_completion {w : Situation} {m : Input} (running : w.fault = none)
    (legal : w.state.Legal) (completion : m.completion?.isSome) (pointer : m.PassesPointer) :
    Ready ((component ports).run (.mk m []) w) := by
  obtain ⟨state, fault, _⟩ := Component.run_leaf (component_callsLast ports) m running
  have turn := component_turn ports legal m
  obtain ⟨goesOn, idle, _⟩ := turn.ends completion pointer
  constructor
  · rw [fault, goesOn]
  · rw [state]
    exact turn.legal legal
  · rw [state, idle]

/-- A valid `configure` puts its settings into force. -/
theorem TurnCase.configures {ports : Ports} {t : I2cTester} {e : Effect} {addr reg len : UInt8}
    (turn : TurnCase ports t (.configure addr reg len) e)
    (address : LegalAddress addr) (length : LegalLength len) :
    e.fault = none ∧ e.state = { t with
      i2cAddress := addr, regOffset := reg, readLength := len, configLoaded := true } := by
  have accepted : t.settings? (.configure addr reg len) = some { t with
      i2cAddress := addr, regOffset := reg, readLength := len, configLoaded := true } :=
    if_pos ⟨address, length⟩
  rw [turn.of_settings accepted]
  exact ⟨rfl, rfl⟩

theorem Ready.configure {w : Situation} {addr len : UInt8} (ready : Ready w)
    (address : LegalAddress addr) (length : LegalLength len) (reg : UInt8) :
    Ready ((component ports).run (.mk (.configure addr reg len) []) w) ∧
      ((component ports).run (.mk (.configure addr reg len) []) w).state = { w.state with
        i2cAddress := addr, regOffset := reg, readLength := len, configLoaded := true } := by
  obtain ⟨state, fault, _⟩ := Component.run_leaf (component_callsLast ports)
    (.configure addr reg len) ready.running
  have turn := component_turn ports ready.legal (.configure addr reg len)
  obtain ⟨goesOn, settings⟩ := turn.configures address length
  rw [settings] at state
  refine ⟨⟨?_, ?_, ?_⟩, state⟩
  · rw [fault, goesOn]
  · rw [state]
    exact ⟨address, length⟩
  · rw [state]
    exact ready.idle

/-- `READ_ONCE` to an idle configured component goes out on the bus. -/
theorem TurnCase.reads {ports : Ports} {t : I2cTester} {e : Effect} {opCode cmdSeq : UInt32}
    (turn : TurnCase ports t (.command opCode cmdSeq .readOnce) e)
    (configured : t.configLoaded = true) (idle : t.state = .idle)
    (wired : ports.i2cWriteReadOut = true) :
    e = ⟨[.store .readBuffer, .store .writeBuffer],
      some (.i2cWriteReadOut t.i2cAddress.toUInt32 (txBuf 1) (rxBuf t.readLength.toNat)),
      t.prepared (.command opCode cmdSeq .readOnce), none⟩ := by
  have attempt : t.attempt? (.command opCode cmdSeq .readOnce) = some .readCmd :=
    if_pos configured
  cases turn.of_attempt attempt with
  | busy active => exact absurd idle active
  | issued => rfl
  | unwired _ cut => exact Bool.noConfusion (wired.symm.trans cut)

theorem Ready.readOnce {w : Situation} (ready : Ready w)
    (configured : w.state.configLoaded = true) (wired : ports.i2cWriteReadOut = true)
    (opCode cmdSeq : UInt32) :
    let o := Port.i2cWriteReadOut w.state.i2cAddress.toUInt32 (txBuf 1)
      (rxBuf w.state.readLength.toNat)
    let u := w.state.prepared (.command opCode cmdSeq .readOnce)
    (component ports).run (.mk (.command opCode cmdSeq .readOnce) []) w =
      ⟨u, w.log ++ .recv (.command opCode cmdSeq .readOnce) w.state ::
        [.out (.store .readBuffer), .out (.store .writeBuffer), .call o u, .back o], none⟩ := by
  have turn := component_turn ports ready.legal (.command opCode cmdSeq .readOnce)
  rw [Component.run_mk (component_callsLast ports) _ _ ready.running]
  simp only [Component.step, turn.reads configured ready.idle wired, List.headD_nil,
    Component.runAll_nil]
  rw [Reentrant.World.finishCall_of_running rfl]
  simp [Reentrant.World.push, Reentrant.Turn.log]

end Again

/-- One completion, a valid `configure` and a `READ_ONCE`. -/
def again (m : Input) (addr reg len : UInt8) (opCode cmdSeq : UInt32) : List (Call Input) :=
  [.mk m [], .mk (.configure addr reg len) [], .mk (.command opCode cmdSeq .readOnce) []]

/-- The component is never wedged. After every run, in any environment, whichever
transaction it is in: one completion that passes the receive-pointer assertion, a valid
`configure` and a `READ_ONCE` put a write-read with exactly these settings on the bus,
and the one response then owed is the one for that command. -/
theorem recovers (ports : Ports) (calls : List (Call Input)) {m : Input} {addr len : UInt8}
    (running : (execute ports calls).fault = none)
    (completion : m.completion?.isSome) (pointer : m.PassesPointer)
    (address : LegalAddress addr) (length : LegalLength len)
    (wired : ports.i2cWriteReadOut = true) (reg : UInt8) (opCode cmdSeq : UInt32) :
    ∃ before t u, (execute ports (calls ++ again m addr reg len opCode cmdSeq)).log =
        before ++ .recv (.command opCode cmdSeq .readOnce) t ::
          [.out (.store .readBuffer), .out (.store .writeBuffer),
            .call (.i2cWriteReadOut addr.toUInt32 (txBuf 1) (rxBuf len.toNat)) u,
            .back (.i2cWriteReadOut addr.toUInt32 (txBuf 1) (rxBuf len.toNat))] ∧
      u.writeBuffer.get 0 = reg ∧
      owed (execute ports (calls ++ again m addr reg len opCode cmdSeq)).state =
        [(opCode, cmdSeq)] := by
  have legal := execute_legal ports calls
  have idle := Ready.of_completion ports running legal completion pointer
  obtain ⟨ready, settings⟩ := idle.configure ports address length reg
  have read := ready.readOnce ports (by rw [settings]) wired opCode cmdSeq
  rw [execute_append]
  simp only [again, Component.runAll_cons, Component.runAll_nil, read]
  refine ⟨_, _, _, by rw [settings], ?_, rfl⟩
  exact loadRead_offset _

/-- A write whose completion was lost, recovered by a stray one on the other port. -/
theorem recovers_lostWrite :
    let lost : List (Call Input) :=
      [.mk (.configure 0x50 0x00 4) [], .mk (.command 1 7 (.writeOnce 0xAB)) []]
    let stray : Input := .writeReadCompleteIn (txBuf 1) (rxBuf 4) .otherErr
    owed (execute ⟨true, true⟩ (lost ++ again stray 0x20 0x10 8 2 9)).state = [(2, 9)] := by
  intro lost stray
  have address : LegalAddress 0x20 := by decide
  have length : LegalLength 8 := by decide
  obtain ⟨_, _, _, _, _, owes⟩ := recovers ⟨true, true⟩ lost (m := stray) rfl rfl rfl address
    length rfl 0x10 2 9
  exact owes

end CuriosityReference.I2cTester
