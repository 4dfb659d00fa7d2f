import SamdReference.I2cTester.Driver

/-!
# What a report says about its transaction

A completion hands back the transmit descriptor, so the offset on the wire can be
read again from the transmit storage. This is sound because, as long as the driver
only transmits out of that storage, it holds what was on the wire until the
transaction is over, and so does the member with the value written. The address is
not recovered: a failure report carries the configured one.
-/

namespace CuriosityReference.I2cTester

open Reentrant (Monitor World Call Obs)

/-- A store by the driver into the storage it transmits from. -/
def storesTransmit : Obs I2cTester Input Note Port → Bool
  | .recv (.storeWriteBuffer _ _) _ => true
  | _ => false

/-- The driver only reads the storage it transmits from. -/
def TransmitOnly (log : History) : Prop := ∀ o ∈ log, storesTransmit o = false

instance (log : History) : Decidable (TransmitOnly log) :=
  inferInstanceAs (Decidable (∀ o ∈ log, storesTransmit o = false))

section Wire

variable {ports : Ports} {t : I2cTester} {m : Input} {e : Effect}

/-- While a transaction is active nothing but its completion, and the driver, gets
at the transmit storage and the value written. -/
theorem TurnCase.keeps_wire (turn : TurnCase ports t m e) (active : t.state ≠ .idle)
    (entry : m.completion? = none) (foreign : ∀ i byte, m ≠ .storeWriteBuffer i byte) :
    e.state.writeBuffer = t.writeBuffer ∧ e.state.writeValue = t.writeValue := by
  cases turn with
  | inactive => exact ⟨rfl, rfl⟩
  | refused => exact ⟨rfl, rfl⟩
  | @settings _ u accepted =>
      have buffer : u.writeBuffer = t.writeBuffer := by rw [settings_only accepted]
      have value : u.writeValue = t.writeValue := by rw [settings_only accepted]
      exact ⟨buffer, value⟩
  | polling => exact ⟨rfl, rfl⟩
  | busy => exact ⟨bump_writeBuffer t _, bump_writeValue t _⟩
  | issued _ idle => exact absurd idle active
  | unwired _ idle => exact absurd idle active
  | stray => exact ⟨rfl, rfl⟩
  | failed completion => simp [entry] at completion
  | shortRead => cases entry
  | readDone => cases entry
  | writeDone => cases entry
  | storedWrite => exact absurd rfl (foreign _ _)
  | storedRead => exact ⟨rfl, rfl⟩

/-- A write commits its value to the member and to the second byte on the wire. -/
theorem prepared_value {op : State} (attempt : t.attempt? m = some op)
    (write : op = .writeCmd) : (t.prepared m).writeBuffer.get 1 = (t.prepared m).writeValue := by
  obtain ⟨_, ⟨_, rfl, _⟩ | ⟨_, _, _, rfl⟩ | ⟨_, _, _, rfl, _⟩⟩ := attempt_cases attempt
  · cases write
  · cases write
  · simp [prepared, loadWrite]

theorem begins_wire {o : Port} {x : Transaction} (begun : o.begins t = some x) :
    x.wire = t.writeBuffer := by
  obtain ⟨request, _, rfl⟩ := Option.map_eq_some_iff.mp begun
  rfl

/-- The lent storage still holds what was on the wire of what is outstanding. -/
theorem wire_upheld (ports : Ports) (fits : Request → Input → Bool) :
    Upheld ports (awaiting fits) fun w xs =>
      (w.fault = none → Agree w.state.state xs) ∧
      (TransmitOnly w.log → ∀ x ∈ xs, x.wire = w.state.writeBuffer ∧
        (w.state.state = .writeCmd → x.wire.get 1 = w.state.writeValue)) where
  turn := by
    intro t log m e xs next legal replayed holds received turn
    refine ⟨(awaiting_upheld ports fits).turn legal replayed holds.1 received turn, ?_⟩
    intro transmit x member
    have before : Agree t.state xs := holds.1 rfl
    have kept := holds.2 fun o earlier => transmit o (List.mem_append_left _ earlier)
    rcases turn.traffic with ⟨entry, same, quiet⟩ | ⟨op, attempt, idle, rfl⟩ |
      ⟨completion, _, _, quiet⟩ | ⟨_, rfl⟩
    · obtain rfl := awaiting_entry entry received
      rw [awaiting_exit_quiet quiet] at member
      have active : t.state ≠ .idle := by
        intro idle
        rw [before.idle_iff.mp idle] at member
        cases member
      have foreign : ∀ i byte, m ≠ .storeWriteBuffer i byte := by
        rintro i byte rfl
        have stored := transmit (.recv (.storeWriteBuffer i byte) t) (by simp)
        cases stored
      obtain ⟨buffer, value⟩ := turn.keeps_wire active entry foreign
      rw [buffer, value, same]
      exact kept x member
    · obtain rfl := awaiting_entry (completion_of_attempt attempt) received
      rw [before.idle_iff.mp idle] at member
      have begun : ((t.prepared m).request op).begins (t.prepared m) = some x := by
        change x ∈ [] ++ (((t.prepared m).request op).begins (t.prepared m)).toList at member
        simpa using member
      have wire := begins_wire begun
      refine ⟨wire, fun write => ?_⟩
      rw [wire]
      refine prepared_value attempt ?_
      rw [← write]
      exact (prepared_state attempt).symm
    · obtain ⟨found, rfl⟩ := awaiting_completes completion received
      rw [awaiting_exit_quiet quiet, before.eraseP found] at member
      cases member
    · obtain ⟨_, rfl⟩ | ⟨_, _, rfl⟩ := awaiting_recv received
      · exact kept x member
      · exact kept x (List.mem_of_mem_eraseP member)
  back := by
    intro t log o xs holds
    refine ⟨holds.1, fun transmit => holds.2 fun p earlier => ?_⟩
    exact transmit p (List.mem_append_left _ earlier)

/-- The offset recovered from the identical descriptor is the first transmit byte. -/
theorem recover_identical {x : Transaction} (agree : Agree t.state [x])
    (matched : x.request.identical m = true) {tx : Buffer} {status : I2cStatus}
    (completion : m.completion? = some (tx, status)) :
    recoverRegOffset t tx = t.writeBuffer.get 0 := by
  obtain ⟨_, addr, n, wire, rfl⟩ | ⟨_, addr, wire, rfl⟩ := agree.cases
  · cases m with
    | writeReadCompleteIn tx' rx' status' =>
        obtain ⟨rfl, _⟩ : tx' = txBuf 1 ∧ rx' = rxBuf n := of_decide_eq_true matched
        obtain ⟨rfl, _⟩ := Prod.mk.inj (Option.some.inj completion)
        rfl
    | _ => cases matched
  · cases m with
    | writeCompleteIn buffer status' =>
        obtain rfl : buffer = txBuf 2 := of_decide_eq_true matched
        obtain ⟨rfl, _⟩ := Prod.mk.inj (Option.some.inj completion)
        rfl
    | _ => cases matched

end Wire

section Emitted

variable {ports : Ports} {t : I2cTester} {m : Input} {e : Effect}

/-- Only an OK read completion reports a successful read. -/
theorem TurnCase.readComplete_emitted (turn : TurnCase ports t m e) {reg len : UInt8}
    {data0 data1 : UInt32} (member : .event (.readComplete reg len data0 data1) ∈ e.notes) :
    ∃ tx rx, m = .writeReadCompleteIn tx rx .ok ∧ reg = recoverRegOffset t tx := by
  cases turn with
  | @readDone tx rx =>
      refine ⟨tx, rx, rfl, ?_⟩
      simp only [List.mem_cons, Note.event.injEq, Event.readComplete.injEq, reduceCtorEq,
        List.not_mem_nil, or_false, false_or] at member
      exact member.1
  | @issued m op => cases op <;> simp [preparing] at member
  | @unwired m op => cases op <;> simp [preparing] at member
  | _ => simp at member

/-- Only an OK write completion reports a successful write. -/
theorem TurnCase.writeComplete_emitted (turn : TurnCase ports t m e) {reg value : UInt8}
    (member : .event (.writeComplete reg value) ∈ e.notes) :
    ∃ buffer, m = .writeCompleteIn buffer .ok ∧ reg = recoverRegOffset t buffer ∧
      value = t.writeValue := by
  cases turn with
  | @writeDone buffer =>
      refine ⟨buffer, rfl, ?_⟩
      simpa using member
  | @issued m op => cases op <;> simp [preparing] at member
  | @unwired m op => cases op <;> simp [preparing] at member
  | _ => simp at member

end Emitted

/-- A completion within the contract finds what was on the wire in the storage. -/
theorem completion_wire {ports : Ports} {calls : List (Call Input)} {xs : List Transaction}
    (contract : (awaiting Request.identical).replay (execute ports calls).log = some xs)
    (transmit : TransmitOnly (execute ports calls).log) {pre post : History} {m : Input}
    {t : I2cTester} (split : (execute ports calls).log = pre ++ .recv m t :: post)
    {x : Transaction} (ended : ends? Request.identical pre m = some x) :
    x.wire = t.writeBuffer ∧ (t.state = .writeCmd → x.wire.get 1 = t.writeValue) := by
  obtain ⟨now, _, _, kept, _, holds, _⟩ :=
    (wire_upheld ports Request.identical).at_recv ⟨fun _ => rfl, by simp [awaiting]⟩
      contract split
  rw [ends?, kept] at ended
  refine holds.2 (fun o earlier => transmit o ?_) x (List.mem_of_find?_eq_some ended)
  rw [split]
  exact List.mem_append_left _ earlier

/-- In every run whose driver completes each request once, with the identical
descriptors, and never writes what it transmits, a success report names the bytes
that were on the wire of the transaction it ends. -/
theorem success_names_wire (ports : Ports) (calls : List (Call Input))
    {xs : List Transaction}
    (contract : (awaiting Request.identical).replay (execute ports calls).log = some xs)
    (transmit : TransmitOnly (execute ports calls).log) {pre post : History} {m : Input}
    {t : I2cTester} (split : (execute ports calls).log = pre ++ .recv m t :: post) :
    (∀ reg len data0 data1, .note (.event (.readComplete reg len data0 data1)) ∈
        Reentrant.Log.ownOutputs post →
      ∃ x, ends? Request.identical pre m = some x ∧ x.request.isWriteRead = true ∧
        reg = x.wire.get 0) ∧
    (∀ reg value, .note (.event (.writeComplete reg value)) ∈
        Reentrant.Log.ownOutputs post →
      ∃ x, ends? Request.identical pre m = some x ∧ x.request.isWriteRead = false ∧
        reg = x.wire.get 0 ∧ value = x.wire.get 1) := by
  obtain ⟨_, _, e, _, _, _, _, turn, _, own⟩ :=
    (wire_upheld ports Request.identical).at_recv ⟨fun _ => rfl, by simp [awaiting]⟩
      contract split
  rw [own]
  refine ⟨?_, ?_⟩
  · intro reg len data0 data1 member
    obtain ⟨tx, rx, rfl, rfl⟩ :=
      turn.readComplete_emitted (Reentrant.Turn.note_mem_outputs.mp member)
    obtain ⟨x, _, ended, matched, agree, _⟩ := awaiting_completion contract split rfl
    obtain ⟨wire, _⟩ := completion_wire contract transmit split ended
    refine ⟨x, ended, ?_, ?_⟩
    · obtain ⟨_, _, _, _, rfl⟩ | ⟨_, _, _, rfl⟩ := agree.cases
      · rfl
      · cases matched
    · rw [wire]
      exact recover_identical agree matched rfl
  · intro reg value member
    obtain ⟨buffer, rfl, rfl, rfl⟩ :=
      turn.writeComplete_emitted (Reentrant.Turn.note_mem_outputs.mp member)
    obtain ⟨x, _, ended, matched, agree, _⟩ := awaiting_completion contract split rfl
    obtain ⟨wire, value⟩ := completion_wire contract transmit split ended
    obtain ⟨_, _, _, _, rfl⟩ | ⟨state, _, _, rfl⟩ := id agree.cases
    · cases matched
    · refine ⟨_, ended, rfl, ?_, (value state).symm⟩
      rw [wire]
      exact recover_identical agree matched rfl

/-- A write of 0xAA; while it is in flight another write is rejected and the register
offset is changed. -/
def writeOvertaken : List (Call Input) :=
  [.mk (.configure 0x50 0x10 4) [],
    .mk (.command 1 7 (.writeOnce 0xAA)) [],
    .mk (.command 2 8 (.writeOnce 0xBB)) [],
    .mk (.command 3 9 (.setRegister 0x20 4)) [],
    .mk (.writeCompleteIn (txBuf 2) .ok) []]

theorem success_names_wire_overtaken :
    ∃ x, ends? Request.identical (execute ⟨true, true⟩ (writeOvertaken.take 4)).log
        (.writeCompleteIn (txBuf 2) .ok) = some x ∧
      x.request.isWriteRead = false ∧ (0x10 : UInt8) = x.wire.get 0 ∧
      (0xAA : UInt8) = x.wire.get 1 := by
  have split : (execute ⟨true, true⟩ writeOvertaken).log =
      (execute ⟨true, true⟩ (writeOvertaken.take 4)).log ++
        .recv (.writeCompleteIn (txBuf 2) .ok)
          (execute ⟨true, true⟩ (writeOvertaken.take 4)).state ::
        [.out (.tlmU32 .txnCount 1), .out (.event (.writeComplete 0x10 0xAA)),
          .call (.cmdResponse 1 7 .ok) (execute ⟨true, true⟩ writeOvertaken).state,
          .back (.cmdResponse 1 7 .ok)] := by decide
  exact (@success_names_wire ⟨true, true⟩ writeOvertaken [] (by decide)
    (by decide) _ _ _ _ split).2 0x10 0xAA (by decide)

/-- The failures reported among the outputs: status, address and offset. -/
def failures (outputs : List (Reentrant.Output Note Port)) :
    List (I2cStatus × UInt32 × UInt8) :=
  outputs.filterMap fun
    | .note (.event (.i2cError status addr reg)) => some (status, addr.toUInt32, reg)
    | _ => none

def Request.addr : Request → UInt32
  | .writeRead addr _ _ => addr
  | .write addr _ => addr

/-- A transaction that ends with a non-OK status when an entry arrives: completed so
by the driver, or never sent because its request port is not connected. -/
inductive Fails (ports : Ports) (log : History) (t : I2cTester) (m : Input)
    (x : Transaction) : I2cStatus → Prop where
  | completed {tx status} : m.completion? = some (tx, status) → status ≠ .ok →
      ends? Request.identical log m = some x → Fails ports log t m x status
  | unwired {op} : t.attempt? m = some op → t.state = .idle → ports.connected op = false →
      ((t.prepared m).request op).begins (t.prepared m) = some x →
      Fails ports log t m x .openErr

/-- Every transaction that fails is reported once, with its status, the address it
was issued to and the offset it was issued with. -/
def NamesFailures (ports : Ports) (log : History) : Prop :=
  ∀ pre m t post x status, log = pre ++ .recv m t :: post → Fails ports pre t m x status →
    failures (Reentrant.Log.ownOutputs post) = [(status, x.request.addr, x.wire.get 0)]

section Failures

variable {ports : Ports} {t : I2cTester} {m : Input} {e : Effect}

theorem failures_reply (notes : List Note) (u : I2cTester) (success : Bool) :
    failures (notes.map .note ++ ((u.reply success).map .call).toList) =
      failures (notes.map .note) := by
  cases u.reply success <;> simp [failures]

/-- A failing completion is reported under the configured address. -/
theorem TurnCase.failures_completed (turn : TurnCase ports t m e) {tx : Buffer}
    {status : I2cStatus} (completion : m.completion? = some (tx, status))
    (error : status ≠ .ok) (pointer : m.PassesPointer) :
    failures e.outputs = [(status, t.i2cAddress.toUInt32, recoverRegOffset t tx)] := by
  cases turn.of_completion (by simp [completion]) with
  | stray fails => exact absurd pointer fails
  | failed same =>
      obtain ⟨rfl, rfl⟩ := Prod.mk.inj (Option.some.inj (same.symm.trans completion))
      rw [Reentrant.Turn.outputs, failures_reply]
      rfl
  | shortRead => exact absurd (Prod.mk.inj (Option.some.inj completion)).2.symm error
  | readDone => exact absurd (Prod.mk.inj (Option.some.inj completion)).2.symm error
  | writeDone => exact absurd (Prod.mk.inj (Option.some.inj completion)).2.symm error

/-- A request that cannot leave is reported with what it would have carried. -/
theorem TurnCase.failures_unwired (turn : TurnCase ports t m e) {op : State}
    (attempt : t.attempt? m = some op) (idle : t.state = .idle)
    (cut : ports.connected op = false) {x : Transaction}
    (begun : ((t.prepared m).request op).begins (t.prepared m) = some x) :
    failures e.outputs = [(.openErr, x.request.addr, x.wire.get 0)] := by
  cases turn.of_attempt attempt with
  | busy active => exact absurd idle active
  | issued _ wired => simp [cut] at wired
  | unwired =>
      rw [Reentrant.Turn.outputs, failures_reply]
      obtain ⟨_, ⟨rfl, rfl, _⟩ | ⟨_, _, rfl, rfl⟩ | ⟨_, _, value, rfl, rfl⟩⟩ :=
        attempt_cases attempt
      · obtain rfl := Option.some.inj begun
        simp [failures, preparing, prepared, loadRead, Request.addr]
      · obtain rfl := Option.some.inj begun
        simp [failures, preparing, prepared, loadRead, Request.addr]
      · obtain rfl := Option.some.inj begun
        simp [failures, preparing, prepared, loadWrite, Request.addr]

end Failures

/-- What is reported of a failing completion, in any run within the contract. -/
theorem failure_reported {ports : Ports} {calls : List (Call Input)} {xs : List Transaction}
    (contract : (awaiting Request.identical).replay (execute ports calls).log = some xs)
    {pre post : History} {m : Input} {t : I2cTester}
    (split : (execute ports calls).log = pre ++ .recv m t :: post) {tx : Buffer}
    {status : I2cStatus} (completion : m.completion? = some (tx, status))
    (error : status ≠ .ok) :
    failures (Reentrant.Log.ownOutputs post) =
      [(status, t.i2cAddress.toUInt32, t.writeBuffer.get 0)] := by
  obtain ⟨x, e, _, matched, agree, turn, _, own⟩ :=
    awaiting_completion contract split (by simp [completion])
  have pointer := agree.passes (Request.samePointer_of_identical matched)
  rw [own, turn.failures_completed completion error pointer,
    recover_identical agree matched completion]

theorem unwired_reported {ports : Ports} {calls : List (Call Input)} {pre post : History}
    {m : Input} {t : I2cTester}
    (split : (execute ports calls).log = pre ++ .recv m t :: post) {op : State}
    (attempt : t.attempt? m = some op) (idle : t.state = .idle)
    (cut : ports.connected op = false) {x : Transaction}
    (begun : ((t.prepared m).request op).begins (t.prepared m) = some x) :
    failures (Reentrant.Log.ownOutputs post) = [(.openErr, x.request.addr, x.wire.get 0)] := by
  obtain ⟨_, e, turn, _, own⟩ := entry_turn split
  rw [own, turn.failures_unwired attempt idle cut begun]

/-- In every run whose driver completes each request once and with the identical
descriptors, every failure is reported under its own address and offset if and only
if each failing completion finds the address it was issued to still configured, and
the first transmit byte untouched. A driver that only transmits leaves that byte
alone, so then the address alone decides. -/
theorem failure_names_iff (ports : Ports) (calls : List (Call Input)) {xs : List Transaction}
    (contract : (awaiting Request.identical).replay (execute ports calls).log = some xs) :
    (∀ pre m t post, (execute ports calls).log = pre ++ .recv m t :: post →
      m.completion?.isSome → ∃ x, ends? Request.identical pre m = some x) ∧
    (NamesFailures ports (execute ports calls).log ↔
      ∀ pre m t post x status, (execute ports calls).log = pre ++ .recv m t :: post →
        m.completion?.isSome → Fails ports pre t m x status →
        t.i2cAddress.toUInt32 = x.request.addr ∧ t.writeBuffer.get 0 = x.wire.get 0) ∧
    (TransmitOnly (execute ports calls).log →
      (NamesFailures ports (execute ports calls).log ↔
        ∀ pre m t post x status, (execute ports calls).log = pre ++ .recv m t :: post →
          m.completion?.isSome → Fails ports pre t m x status →
          t.i2cAddress.toUInt32 = x.request.addr)) := by
  have exact_condition : NamesFailures ports (execute ports calls).log ↔
      ∀ pre m t post x status, (execute ports calls).log = pre ++ .recv m t :: post →
        m.completion?.isSome → Fails ports pre t m x status →
        t.i2cAddress.toUInt32 = x.request.addr ∧ t.writeBuffer.get 0 = x.wire.get 0 := by
    constructor
    · intro named pre m t post x status split completed fails
      have report := named pre m t post x status split fails
      cases fails with
      | completed completion error =>
          rw [failure_reported contract split completion error] at report
          simpa using report
      | unwired attempt =>
          rw [completion_of_attempt attempt] at completed
          cases completed
    · intro unchanged pre m t post x status split fails
      cases id fails with
      | completed completion error =>
          obtain ⟨address, byte⟩ :=
            unchanged pre m t post x status split (by simp [completion]) fails
          rw [failure_reported contract split completion error, address, byte]
      | unwired attempt idle cut begun =>
          exact unwired_reported split attempt idle cut begun
  refine ⟨?_, exact_condition, ?_⟩
  · intro pre m t post split completed
    obtain ⟨x, _, ended, _⟩ := awaiting_completion contract split completed
    exact ⟨x, ended⟩
  · intro transmit
    rw [exact_condition]
    constructor
    · intro unchanged pre m t post x status split completed fails
      exact (unchanged pre m t post x status split completed fails).1
    · intro unchanged pre m t post x status split completed fails
      refine ⟨unchanged pre m t post x status split completed fails, ?_⟩
      cases fails with
      | completed _ _ ended =>
          rw [(completion_wire contract transmit split ended).1]
      | unwired attempt =>
          rw [completion_of_attempt attempt] at completed
          cases completed

/-- A read from 0x50 fails after the address was changed to 0x51 in flight. -/
def retargetedInFlight : List (Call Input) :=
  [.mk (.configure 0x50 0x10 4) [],
    .mk (.command 1 7 .readOnce) [],
    .mk (.command 2 8 (.setAddress 0x51)) [],
    .mk (.writeReadCompleteIn (txBuf 1) (rxBuf 4) .writeErr) []]

/-- The situation the completion finds. -/
def retargeted : Situation := execute ⟨true, true⟩ (retargetedInFlight.take 3)

theorem failure_names_iff_retargeted :
    NamesFailures ⟨true, true⟩ (execute ⟨true, true⟩ retargetedInFlight).log ↔
      ∀ pre m t post x status,
        (execute ⟨true, true⟩ retargetedInFlight).log = pre ++ .recv m t :: post →
        m.completion?.isSome → Fails ⟨true, true⟩ pre t m x status →
        t.i2cAddress.toUInt32 = x.request.addr :=
  (@failure_names_iff ⟨true, true⟩ retargetedInFlight [] (by decide)).2.2 (by decide)

/-- The failure is reported under the address of a device that was not addressed. -/
theorem failure_not_named :
    ¬∀ (ports : Ports) (calls : List (Call Input)) (xs : List Transaction),
      (awaiting Request.identical).replay (execute ports calls).log = some xs →
      TransmitOnly (execute ports calls).log →
      NamesFailures ports (execute ports calls).log := by
  intro all
  have named := all ⟨true, true⟩ retargetedInFlight [] (by decide) (by decide)
  have split : (execute ⟨true, true⟩ retargetedInFlight).log = retargeted.log ++
      .recv (.writeReadCompleteIn (txBuf 1) (rxBuf 4) .writeErr) retargeted.state ::
        (execute ⟨true, true⟩ retargetedInFlight).log.drop (retargeted.log.length + 1) := by
    decide
  have report := named _ _ _ _ ⟨.writeRead 0x50 (txBuf 1) (rxBuf 4), #v[0x10, 0]⟩ .writeErr
    split (.completed rfl (by decide) (by decide))
  exact absurd report (by decide)

end CuriosityReference.I2cTester
