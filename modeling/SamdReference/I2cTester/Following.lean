import SamdReference.I2cTester.Remote

/-!
# Where the remote machine is

The component and the bus are related to the machine by the operation under way: the
request pending on the bus is the operation's, and what it transmits is in the transmit
buffer. An entry that is no completion keeps the relation and outputs what the machine
reports for it.
-/

namespace CuriosityReference.I2cTester

open Reentrant (Output)

variable {δ : Type}

/-- The command whose answer the active transaction owes. -/
def owner (t : I2cTester) : Option Caller :=
  match t.state with
  | .readCmd | .writeCmd => some (t.pendingOpCode, t.pendingCmdSeq)
  | .readSched | .idle => none

/-- The operation under way and the request pending for it. What the request transmits
is in the transmit buffer. -/
inductive Underway (t : I2cTester) : Option Operation → List Transaction → Prop where
  | idle (idle : t.state = .idle) : Underway t none []
  | reading {address offset n wire} (reading : t.state = .readSched ∨ t.state = .readCmd)
      (loaded : t.writeBuffer.get 0 = offset) (legal : LegalLength n) :
      Underway t (some ⟨t.owner, address, offset, .read n⟩)
        [⟨.writeRead address.toUInt32 (txBuf 1) (rxBuf n.toNat), wire⟩]
  | writing {address offset value wire} (writing : t.state = .writeCmd)
      (loaded : t.writeBuffer.get 0 = offset) (last : t.writeBuffer.get 1 = value)
      (kept : t.writeValue = value) :
      Underway t (some ⟨t.owner, address, offset, .write value⟩)
        [⟨.write address.toUInt32 (txBuf 2), wire⟩]

/-- The component and the bus are where the remote machine is. -/
structure Follows (t : I2cTester) (b : Bus δ) (r : Remote δ) : Prop where
  legal : t.Legal
  device : r.device = b.device
  address : r.address = t.i2cAddress
  offset : r.offset = t.regOffset
  length : r.length = t.readLength
  configured : r.configured = t.configLoaded
  polling : r.polling = t.polling
  pending : Underway t r.pending b.pending

section Turns

variable {t u : I2cTester} {b : Bus δ} {r : Remote δ} {ports : Ports} {D : Device δ}
variable {m : Input} {e : Effect}

/-- Members that an operation under way does not rest on may change. -/
theorem Underway.frame {op : Option Operation} {xs : List Transaction}
    (h : Underway t op xs) (state : u.state = t.state) (owner : u.owner = t.owner)
    (buffer : u.writeBuffer = t.writeBuffer) (value : u.writeValue = t.writeValue) :
    Underway u op xs := by
  cases h with
  | idle idle => exact .idle (state.trans idle)
  | reading reading loaded legal =>
      rw [← owner]
      exact .reading (state ▸ reading) (buffer ▸ loaded) legal
  | writing writing loaded last kept =>
      rw [← owner]
      exact .writing (state.trans writing) (buffer ▸ loaded) (buffer ▸ last) (value.trans kept)

theorem Underway.idle_iff {op : Option Operation} {xs : List Transaction}
    (h : Underway t op xs) : t.state = .idle ↔ op = none := by
  cases h with
  | idle idle => exact iff_of_true idle rfl
  | reading reading => rcases reading with h | h <;> simp [h]
  | writing writing => simp [writing]

/-- The state of the component names the operation under way. -/
theorem Underway.state_eq {op : Operation} {xs : List Transaction}
    (h : Underway t (some op) xs) : op.action.state op.caller = t.state := by
  cases h with
  | reading reading => rcases reading with h | h <;> simp [Action.state, owner, h]
  | writing writing => simp [Action.state, writing]

theorem Underway.owner_eq {op : Operation} {xs : List Transaction}
    (h : Underway t (some op) xs) : op.caller = t.owner := by
  cases h with
  | reading => rfl
  | writing => rfl

/-- What a turn outputs for the ground: the notes, then the answer. -/
theorem filterMap_outputs (e : Effect) :
    e.outputs.filterMap downlink.report =
      e.notes.filterMap Note.report? ++ (e.exit.bind Port.report?).toList := by
  have notes : (e.notes.map (.note : Note → Output Note Port)).filterMap downlink.report =
      e.notes.filterMap Note.report? := by
    rw [List.filterMap_map]
    rfl
  rw [Reentrant.Turn.outputs, List.filterMap_append, notes]
  cases e.exit with
  | none => rfl
  | some o => cases h : o.report? <;> simp [downlink, h]

@[simp] theorem report_answer (m : Input) (response : CmdResponse) :
    ((m.answer response).bind Port.report?).toList = answered m.caller? response := by
  cases h : m.caller? <;> simp [Input.answer, h, Port.report?, answered]

@[simp] theorem report_reply (success : Bool) :
    ((t.reply success).bind Port.report?).toList =
      answered t.owner (if success then .ok else .executionError) := by
  cases h : t.state <;> simp [reply, owner, h, Port.report?, answered]

@[simp] theorem report_preparing (op : State) :
    (preparing op).filterMap Note.report? = [] := by
  cases op <;> rfl

theorem report_request (op : State) : (t.request op).report? = none := by
  cases op <;> rfl

/-- What the machine does with the stimulus an entry stands for. -/
def respond (D : Device δ) (ports : Ports) (r : Remote δ) (m : Input) :
    Remote δ × List Report :=
  (m.stimulus?.map (r.step D ports)).getD (r, [])

theorem run_stimulus (device : δ) (r : Remote δ) (m : Input) :
    (remote D ports device).run (downlink.stimulus m).toList r = respond D ports r m := by
  cases h : m.stimulus? <;> simp [respond, downlink, h, remote]

variable (ports D) in
/-- An attempt starts an operation with the current settings. -/
theorem respond_attempt {op : State} (follows : Follows t b r)
    (attempt : t.attempt? m = some op) :
    ∃ action : Action, action.state m.caller? = op ∧
      respond D ports r m = r.begin ports m.caller? action ∧
      Underway (t.prepared m) (some ⟨m.caller?, t.i2cAddress, t.regOffset, action⟩)
        (((t.prepared m).request op).begins (t.prepared m)).toList := by
  obtain ⟨configured, ⟨rfl, rfl, polling⟩ | ⟨opCode, cmdSeq, rfl, rfl⟩ |
    ⟨opCode, cmdSeq, value, rfl, rfl⟩⟩ := attempt_cases attempt
  · have active : r.configured = true ∧ r.polling = true :=
      ⟨follows.configured.trans configured, follows.polling.trans polling⟩
    refine ⟨.read t.readLength, rfl, ?_, ?_⟩
    · simp [respond, Input.stimulus?, Remote.step, active, follows.length, Input.caller?]
    · exact .reading (.inl rfl) (get_setByte _ _ _ _) follows.legal.length
  · have active : r.configured = true := follows.configured.trans configured
    refine ⟨.read t.readLength, rfl, ?_, ?_⟩
    · simp [respond, Input.stimulus?, Remote.step, Remote.command, active, follows.length,
        Input.caller?]
    · exact .reading (.inr rfl) (get_setByte _ _ _ _) follows.legal.length
  · have active : r.configured = true := follows.configured.trans configured
    refine ⟨.write value, rfl, ?_, ?_⟩
    · simp [respond, Input.stimulus?, Remote.step, Remote.command, active, Input.caller?]
    · refine .writing rfl ?_ (get_setByte _ _ _ _) rfl
      simp [prepared, loadWrite]

/-- The request an operation makes. -/
def Operation.request (op : Operation) : Request :=
  match op.action with
  | .read n => .writeRead op.address.toUInt32 (txBuf 1) (rxBuf n.toNat)
  | .write _ => .write op.address.toUInt32 (txBuf 2)

/-- The completion of an operation as the driver hands it back. -/
def Operation.completion (op : Operation) (status : I2cStatus) : Input :=
  match op.action with
  | .read n => .writeReadCompleteIn (txBuf 1) (rxBuf n.toNat) status
  | .write _ => .writeCompleteIn (txBuf 2) status

theorem Underway.pending_eq {op : Option Operation} {xs : List Transaction}
    (h : Underway t op xs) : xs.map Transaction.request = op.toList.map Operation.request := by
  cases h <;> rfl

theorem Follows.idle (follows : Follows t b r) (idle : t.state = .idle) :
    r.pending = none ∧ b.pending = [] := by
  have none := follows.pending.idle_iff.mp idle
  refine ⟨none, ?_⟩
  have requests := follows.pending.pending_eq
  rw [none] at requests
  exact List.map_eq_nil_iff.mp requests

theorem Follows.active (follows : Follows t b r) (active : t.state ≠ .idle) :
    ∃ op, r.pending = some op ∧ Underway t (some op) b.pending := by
  have underway := follows.pending
  cases pending : r.pending with
  | none => exact absurd (follows.pending.idle_iff.mpr pending) active
  | some op =>
      rw [pending] at underway
      exact ⟨op, rfl, underway⟩

variable (ports D) in
theorem respond_refusal {value : UInt8} {response : CmdResponse} (follows : Follows t b r)
    (refusal : t.refusal? m = some (value, response)) :
    respond D ports r m = (r, .rejected :: answered m.caller? response) := by
  cases m with
  | configure addr reg len =>
      by_cases address : LegalAddress addr
      · by_cases length : LegalLength len
        · simp [refusal?, address, length] at refusal
        · simp [respond, Input.stimulus?, Remote.step, address, length, answered, Input.caller?]
      · simp [respond, Input.stimulus?, Remote.step, address, answered, Input.caller?]
  | command opCode cmdSeq cmd =>
      cases cmd with
      | setAddress addr =>
          simp only [refusal?, Option.ite_none_right_eq_some, Option.some.injEq,
            Prod.mk.injEq] at refusal
          obtain ⟨address, _, rfl⟩ := refusal
          simp [respond, Input.stimulus?, Remote.step, Remote.command, address, answered,
            Input.caller?]
      | setRegister reg len =>
          simp only [refusal?, Option.ite_none_right_eq_some, Option.some.injEq,
            Prod.mk.injEq] at refusal
          obtain ⟨length, _, rfl⟩ := refusal
          simp [respond, Input.stimulus?, Remote.step, Remote.command, length, answered,
            Input.caller?]
      | readOnce =>
          simp only [refusal?, Option.ite_none_left_eq_some, Option.some.injEq,
            Prod.mk.injEq] at refusal
          obtain ⟨unconfigured, _, rfl⟩ := refusal
          simp [respond, Input.stimulus?, Remote.step, Remote.command, follows.configured,
            unconfigured, answered, Input.caller?]
      | writeOnce value =>
          simp only [refusal?, Option.ite_none_left_eq_some, Option.some.injEq,
            Prod.mk.injEq] at refusal
          obtain ⟨unconfigured, _, rfl⟩ := refusal
          simp [respond, Input.stimulus?, Remote.step, Remote.command, follows.configured,
            unconfigured, answered, Input.caller?]
      | setPolling enable => cases refusal
  | _ => cases refusal

variable (ports D) in
theorem respond_settings (accepted : t.settings? m = some u) (follows : Follows t b r) :
    respond D ports r m =
      ({ r with
        address := u.i2cAddress, offset := u.regOffset, length := u.readLength
        configured := u.configLoaded }, answered m.caller? .ok) := by
  obtain ⟨addr, reg, len, rfl, address, length, rfl⟩ | ⟨opCode, cmdSeq, addr, rfl, address, rfl⟩ |
    ⟨opCode, cmdSeq, reg, len, rfl, length, rfl⟩ := settings_cases accepted
  · simp [respond, Input.stimulus?, Remote.step, address, length, answered, Input.caller?]
  · simp [respond, Input.stimulus?, Remote.step, Remote.command, address, answered,
      Input.caller?, ← follows.offset, ← follows.length, ← follows.configured]
  · simp [respond, Input.stimulus?, Remote.step, Remote.command, length, answered,
      Input.caller?, ← follows.address, ← follows.configured]

theorem bus_entry {device : δ} {next : Bus δ} (entry : m.completion? = none)
    (received : (bus D device).recv m t b = some next) : next = b := by
  cases m with
  | writeReadCompleteIn => cases entry
  | writeCompleteIn => cases entry
  | storeWriteBuffer => cases received
  | _ => exact (Option.some.inj received).symm

theorem bus_exit_quiet {device : δ} (quiet : e.exit.bind Port.request? = none) (b : Bus δ) :
    (bus D device).exit e b = b := by
  cases h : e.exit with
  | none => simp [Reentrant.Monitor.exit, h]
  | some o =>
      have none : o.request? = none := by simpa [h] using quiet
      simp [Reentrant.Monitor.exit, h, bus, Port.begins, none]

theorem Operation.completion_of_identical {op : Operation}
    (same : op.request.identical m = true) : ∃ status, m = op.completion status := by
  obtain ⟨caller, address, offset, action⟩ := op
  cases action <;> cases m <;> simp_all [request, Request.identical, completion]

theorem Operation.completion_status (op : Operation) (status : I2cStatus) :
    (op.completion status).completion?.map Prod.snd = some status := by
  obtain ⟨caller, address, offset, action⟩ := op
  cases action <;> rfl

/-- The transfer of the pending request is the one its operation makes. -/
theorem Underway.transfer {op : Operation} {xs : List Transaction}
    (h : Underway t (some op) xs) {status : I2cStatus} {before after : δ}
    (carried : D.transfer? before t status op.request = some after) :
    status = (op.carry D before).status ∧ after = (op.carry D before).device ∧
      (status = .ok → ∀ n, op.action = .read n →
        (op.carry D before).received = t.readBuffer.toList.take n.toNat) := by
  cases h with
  | reading reading loaded legal =>
      simp only [Device.transfer?, Operation.request, bytes_txBuf_one, bytes_rxBuf, loaded,
        Option.ite_none_right_eq_some, Option.some.injEq] at carried
      obtain ⟨⟨answer, received⟩, rfl⟩ := carried
      refine ⟨answer, rfl, ?_⟩
      intro ok n same
      obtain rfl := Action.read.inj same
      exact (received ok).symm
  | writing writing loaded last kept =>
      simp only [Device.transfer?, Operation.request, bytes_txBuf_two, loaded, last,
        Option.ite_none_right_eq_some, Option.some.injEq] at carried
      obtain ⟨answer, rfl⟩ := carried
      refine ⟨answer, rfl, ?_⟩
      intro ok n same
      cases same

/-- A pending request that is given up takes its operation with it. -/
theorem Underway.givenUp {op : Operation} {xs : List Transaction}
    (h : Underway t (some op) xs) (D : Device δ) (device : δ) :
    D.givenUp device t op.request = op.giveUp D device := by
  cases h with
  | reading reading loaded legal =>
      simp [Device.givenUp, Operation.request, Operation.giveUp, Operation.wire, Operation.count,
        bytes_txBuf_one, loaded, rxBuf]
  | writing writing loaded last kept =>
      simp [Device.givenUp, Operation.request, Operation.giveUp, Operation.wire, Operation.count,
        bytes_txBuf_two, loaded, last]

theorem bus_completion {device : δ} {next : Bus δ} {tx : Buffer} {status : I2cStatus}
    (completion : m.completion? = some (tx, status))
    (received : (bus D device).recv m t b = some next) :
    ∃ x, b.pending.find? (fun x => x.request.identical m) = some x ∧
      next.pending = b.without m ∧
      ((status = .otherErr ∧ next.device = D.givenUp b.device t x.request) ∨
        (status ≠ .otherErr ∧ D.transfer? b.device t status x.request = some next.device)) := by
  have asked : (bus D device).recv m t b =
      (b.pending.find? fun x => x.request.identical m).bind fun x =>
        if status = .otherErr then some ⟨D.givenUp b.device t x.request, b.without m⟩
        else (D.transfer? b.device t status x.request).map (⟨·, b.without m⟩) := by
    cases m with
    | writeReadCompleteIn | writeCompleteIn =>
        obtain ⟨rfl, rfl⟩ := Prod.mk.inj (Option.some.inj completion)
        simp only [bus, Input.completion?]
        cases b.pending.find? _ <;> rfl
    | _ => cases completion
  rw [asked] at received
  cases found : b.pending.find? fun x => x.request.identical m with
  | none => simp [found] at received
  | some x =>
      simp only [found, Option.bind_some] at received
      refine ⟨x, rfl, ?_⟩
      by_cases given : status = .otherErr
      · rw [if_pos given] at received
        obtain rfl := Option.some.inj received
        exact ⟨rfl, .inl ⟨given, rfl⟩⟩
      · rw [if_neg given, Option.map_eq_some_iff] at received
        obtain ⟨after, carried, rfl⟩ := received
        exact ⟨rfl, .inr ⟨given, carried⟩⟩

/-- A completion that hands back the operation under way, given up or carried out. -/
structure HandedBack (D : Device δ) (t : I2cTester) (b next : Bus δ) (r : Remote δ) (m : Input)
    (status : I2cStatus) (op : Operation) : Prop where
  pending : r.pending = some op
  same : m = op.completion status
  left : next.pending = []
  underway : Underway t (some op) b.pending
  outcome : (status = .otherErr ∧ next.device = op.giveUp D r.device) ∨
    (status ≠ .otherErr ∧ status = (op.carry D r.device).status ∧
      next.device = (op.carry D r.device).device ∧
      (status = .ok → ∀ n, op.action = .read n →
        (op.carry D r.device).received = t.readBuffer.toList.take n.toNat))

/-- Every completion within the contract does. -/
theorem Follows.handed_back (follows : Follows t b r) {device : δ} {next : Bus δ} {tx : Buffer}
    {status : I2cStatus} (completion : m.completion? = some (tx, status))
    (received : (bus D device).recv m t b = some next) :
    ∃ op, HandedBack D t b next r m status op := by
  obtain ⟨x, found, left, outcome⟩ := bus_completion completion received
  have underway := follows.pending
  have member := List.mem_of_find?_eq_some found
  have same : x.request.identical m = true := by simpa using List.find?_some found
  cases pending : r.pending with
  | none =>
      rw [pending] at underway
      have none := List.map_eq_nil_iff.mp underway.pending_eq
      rw [none] at member
      cases member
  | some op =>
      rw [pending] at underway
      obtain ⟨y, only, request⟩ := List.map_eq_singleton_iff.mp underway.pending_eq
      rw [only, List.mem_singleton] at member
      subst member
      rw [request] at same outcome
      obtain ⟨status', rfl⟩ := Operation.completion_of_identical same
      obtain rfl : status' = status := by
        have stated := op.completion_status status'
        rw [completion] at stated
        exact (Option.some.inj stated).symm
      refine ⟨op, pending, rfl, ?_, underway, ?_⟩
      · rw [left, Bus.without, only]
        simp [request, same]
      · rw [follows.device]
        rcases outcome with ⟨given, device⟩ | ⟨carried, transfer⟩
        · exact .inl ⟨given, device.trans (underway.givenUp D b.device)⟩
        · exact .inr ⟨carried, underway.transfer transfer⟩

theorem Underway.recover {op : Operation} {xs : List Transaction}
    (h : Underway t (some op) xs) {status : I2cStatus} {tx : Buffer}
    (completion : (op.completion status).completion? = some (tx, status)) :
    recoverRegOffset t tx = op.offset := by
  cases h with
  | reading reading loaded legal =>
      obtain ⟨rfl, _⟩ := Prod.mk.inj (Option.some.inj completion)
      exact loaded
  | writing writing loaded last kept =>
      obtain ⟨rfl, _⟩ := Prod.mk.inj (Option.some.inj completion)
      exact loaded

theorem Operation.respond_completion (op : Operation) (status : I2cStatus)
    (pending : r.pending = some op) :
    respond D ports r (op.completion status) =
      if status = .otherErr then
        r.finish op (op.giveUp D r.device) (.failed .otherErr op.offset) false
      else r.serve D op := by
  have stimulus : (op.completion status).stimulus? =
      some (if status = .otherErr then .giveUp else .serve) := by
    obtain ⟨caller, address, offset, action⟩ := op
    cases action <;> rfl
  rw [respond, stimulus]
  by_cases given : status = .otherErr
  · rw [if_pos given, if_pos given]
    simp [Remote.step, pending]
  · rw [if_neg given, if_neg given]
    simp [Remote.step, pending]

/-- An operation ends and leaves the component idle with the same settings. -/
theorem Follows.ended (follows : Follows t b r) (c : Counter) {next : Bus δ}
    (left : next.pending = []) :
    Follows (t.bump c).finished next { r with device := next.device, pending := none } where
  legal := bump_finished_legal follows.legal c
  device := rfl
  address := follows.address.trans (bump_i2cAddress t c).symm
  offset := follows.offset.trans (bump_regOffset t c).symm
  length := follows.length.trans (bump_readLength t c).symm
  configured := follows.configured.trans (bump_configLoaded t c).symm
  polling := follows.polling.trans (bump_polling t c).symm
  pending := by
    rw [left]
    exact .idle rfl

/-- The members prepared for a request follow the machine with the operation started. -/
theorem Follows.prepared (follows : Follows t b r) (m : Input) {action : Action}
    {xs : List Transaction}
    (started : Underway (t.prepared m)
      (some ⟨m.caller?, t.i2cAddress, t.regOffset, action⟩) xs) :
    Follows (t.prepared m) ⟨b.device, xs⟩
      { r with pending := some ⟨m.caller?, r.address, r.offset, action⟩ } := by
  obtain ⟨address, offset, length, configured, polling⟩ := prepared_settings t m
  refine ⟨prepared_legal follows.legal m, follows.device, ?_, ?_, ?_, ?_, ?_, ?_⟩
  · exact follows.address.trans address.symm
  · exact follows.offset.trans offset.symm
  · exact follows.length.trans length.symm
  · exact follows.configured.trans configured.symm
  · exact follows.polling.trans polling.symm
  · rw [follows.address, follows.offset]
    exact started

theorem Follows.bumped (follows : Follows t b r) (c : Counter) : Follows (t.bump c) b r where
  legal := ⟨(bump_i2cAddress t c).symm ▸ follows.legal.address,
    (bump_readLength t c).symm ▸ follows.legal.length⟩
  device := follows.device
  address := follows.address.trans (bump_i2cAddress t c).symm
  offset := follows.offset.trans (bump_regOffset t c).symm
  length := follows.length.trans (bump_readLength t c).symm
  configured := follows.configured.trans (bump_configLoaded t c).symm
  polling := follows.polling.trans (bump_polling t c).symm
  pending := follows.pending.frame (bump_state t c) (by cases c <;> rfl) (bump_writeBuffer t c)
    (bump_writeValue t c)

/-- Unpacking the words that a read was packed into gives its bytes back. -/
theorem unpack_packed {words : Vector UInt32 2} {length : UInt8} (legal : LegalLength length)
    (packed : octets words = padded t.readBuffer length.toNat) :
    unpack length (words.get 0) (words.get 1) = t.readBuffer.toList.take length.toNat := by
  have bound := legal.toNat.2
  apply List.ext_getElem
  · simp [unpack, bound]
  · intro k below _
    have inside : k < length.toNat := by simpa [unpack] using below
    have spelled := congrArg (fun v => v.get ⟨k, by omega⟩) packed
    simp only [octets, padded, ofFn_get, if_pos inside] at spelled
    simp only [unpack, List.getElem_map, List.getElem_range, List.getElem_take]
    refine Eq.trans ?_ spelled
    by_cases first : k < 4
    · have word : k / 4 = 0 := by omega
      simp [first, word, Vector.get]
    · have word : k / 4 = 1 := by omega
      simp [first, word, Vector.get]

/-- What a turn within the contract has to establish. -/
structure Tracks (D : Device δ) (ports : Ports) (r : Remote δ) (m : Input) (e : Effect)
    (next : Bus δ) : Prop where
  running : e.fault = none
  follows : Follows e.state next (respond D ports r m).1
  reports : e.outputs.filterMap downlink.report = (respond D ports r m).2

theorem Tracks.refused (follows : Follows t b r) (D : Device δ) {value : UInt8}
    {response : CmdResponse} (refusal : t.refusal? m = some (value, response)) :
    Tracks D ports r m ⟨[.event (.invalidConfig value)], m.answer response, t, none⟩ b := by
  have answer := respond_refusal ports D follows refusal
  refine ⟨rfl, ?_, ?_⟩
  · rw [answer]
    exact follows
  · rw [answer, filterMap_outputs]
    simp [Note.report?]

theorem Tracks.settings (follows : Follows t b r) (D : Device δ)
    (accepted : t.settings? m = some u) :
    Tracks D ports r m
      ⟨[.tlmU8 .targetAddress u.i2cAddress, .tlmU8 .registerOffset u.regOffset,
        .tlmU8 .readLength u.readLength], m.answer .ok, u, none⟩ b := by
  have answer := respond_settings ports D accepted follows
  have only := settings_only accepted
  refine ⟨rfl, ?_, ?_⟩
  · rw [answer]
    refine ⟨settings_legal follows.legal accepted, follows.device, rfl, rfl, rfl, rfl, ?_, ?_⟩
    · rw [only]
      exact follows.polling
    · rw [only]
      exact follows.pending.frame rfl rfl rfl rfl
  · rw [answer, filterMap_outputs]
    simp [Note.report?]

section Attempt

variable {op : State} (follows : Follows t b r) (attempt : t.attempt? m = some op)

include follows attempt

/-- Both are busy with the same operation. -/
theorem Tracks.busy (D : Device δ) (active : t.state ≠ .idle) :
    Tracks D ports r m
      ⟨[.event (.busy op t.state), .tlmU32 .busyRejects (t.busyRejects + 1)],
        m.answer .executionError, t.bump .busyRejects, none⟩ b := by
  obtain ⟨action, kind, answer, _⟩ := respond_attempt ports D follows attempt
  obtain ⟨op', pending, underway⟩ := follows.active active
  rw [Remote.begin_busy pending] at answer
  refine ⟨rfl, ?_, ?_⟩
  · rw [answer]
    exact follows.bumped .busyRejects
  · rw [answer, filterMap_outputs]
    simp [Note.report?, kind, underway.state_eq]

/-- Both start the operation, and its request is pending. -/
theorem Tracks.issued (device : δ) (idle : t.state = .idle) (wired : ports.connected op = true) :
    let e : Effect := ⟨preparing op, some ((t.prepared m).request op), t.prepared m, none⟩
    Tracks D ports r m e ((bus D device).exit e b) := by
  intro e
  obtain ⟨action, kind, answer, started⟩ := respond_attempt ports D follows attempt
  obtain ⟨pending, nothing⟩ := follows.idle idle
  rw [Remote.begin_wired pending (by rw [kind, wired])] at answer
  refine ⟨rfl, ?_, ?_⟩
  · rw [answer]
    have prepared := follows.prepared m started
    simpa only [e, Reentrant.Monitor.exit, bus, nothing, List.nil_append] using prepared
  · rw [answer, filterMap_outputs]
    simp [e, report_request]

/-- Neither starts an operation whose request cannot leave. -/
theorem Tracks.unwired (D : Device δ) (idle : t.state = .idle)
    (cut : ports.connected op = false) :
    Tracks D ports r m
      ⟨preparing op ++ [.tlmU32 .openErrors (t.openErrors + 1),
        .event (.i2cError .openErr t.i2cAddress t.regOffset)],
        (t.prepared m).reply false, ((t.prepared m).bump .openErrors).finished, none⟩ b := by
  obtain ⟨action, kind, answer, started⟩ := respond_attempt ports D follows attempt
  obtain ⟨pending, nothing⟩ := follows.idle idle
  rw [Remote.begin_cut pending (by rw [kind, cut])] at answer
  refine ⟨rfl, ?_, ?_⟩
  · have ended := (follows.prepared m started).ended .openErrors nothing
    rw [answer]
    obtain ⟨device, address, offset, length, configured, polling, op⟩ := r
    cases pending
    cases follows.device
    exact ended
  · have owed := started.owner_eq
    rw [answer, filterMap_outputs, List.filterMap_append, report_preparing, report_reply,
      ← owed, follows.offset]
    rfl

end Attempt

/-- An entry that is no completion keeps the two together. -/
theorem Follows.entry (follows : Follows t b r) {device : δ} {next : Bus δ}
    (received : (bus D device).recv m t b = some next) (turn : TurnCase ports t m e)
    (entry : m.completion? = none) :
    Tracks D ports r m e ((bus D device).exit e next) := by
  obtain rfl := bus_entry entry received
  cases turn with
  | inactive off =>
      have quiet : ¬(r.configured ∧ r.polling) := by
        rw [follows.configured, follows.polling]
        simpa [attempt?] using off
      have answer : respond D ports r .schedIn = (r, []) := if_neg quiet
      refine ⟨rfl, ?_, ?_⟩
      · rw [answer]
        exact follows
      · rw [answer]
        rfl
  | refused refusal =>
      rw [bus_exit_quiet (answer_request _)]
      exact .refused follows D refusal
  | settings accepted =>
      rw [bus_exit_quiet (answer_request _)]
      exact .settings follows D accepted
  | polling =>
      rw [bus_exit_quiet rfl]
      refine ⟨rfl, ?_, rfl⟩
      exact ⟨⟨follows.legal.address, follows.legal.length⟩, follows.device, follows.address,
        follows.offset, follows.length, follows.configured, rfl,
        follows.pending.frame rfl rfl rfl rfl⟩
  | busy attempt active =>
      rw [bus_exit_quiet (answer_request _)]
      exact .busy follows attempt D active
  | issued attempt idle wired => exact .issued follows attempt device idle wired
  | unwired attempt idle cut =>
      rw [bus_exit_quiet (reply_request _)]
      exact .unwired follows attempt D idle cut
  | stray pointer => exact absurd (passes_of_entry entry) pointer
  | failed completion =>
      rw [completion] at entry
      cases entry
  | shortRead => cases entry
  | readDone => cases entry
  | writeDone => cases entry
  | storedWrite => cases received
  | storedRead =>
      rw [bus_exit_quiet rfl]
      refine ⟨rfl, ?_, rfl⟩
      exact ⟨⟨follows.legal.address, follows.legal.length⟩, follows.device, follows.address,
        follows.offset, follows.length, follows.configured, follows.polling,
        follows.pending.frame rfl rfl rfl rfl⟩

end Turns
end CuriosityReference.I2cTester
