import SamdReference.I2cTester.Following

/-!
# Remote access

A completion ends the operation under way as the machine does: it is carried out, or
given up, and reported with what was fixed when it was started. With that every turn
within the contract of the bus is matched, and every run is one of the machine.
-/

namespace CuriosityReference.I2cTester

open Reentrant (Refines Matches Call)

variable {δ : Type}

section Turns

variable {t u : I2cTester} {b : Bus δ} {r : Remote δ} {ports : Ports} {D : Device δ}
variable {m : Input} {e : Effect}

variable (ports D) in
/-- A completion that did not end well is reported with the operation's offset. -/
theorem Operation.respond_failed {op : Operation} {status : I2cStatus}
    (pending : r.pending = some op) (error : status ≠ .ok) {device : δ}
    (outcome : (status = .otherErr ∧ device = op.giveUp D r.device) ∨
      (status ≠ .otherErr ∧ status = (op.carry D r.device).status ∧
        device = (op.carry D r.device).device)) :
    respond D ports r (op.completion status) =
      r.finish op device (.failed status op.offset) false := by
  rw [op.respond_completion status pending]
  rcases outcome with ⟨rfl, rfl⟩ | ⟨carried, answer, rfl⟩
  · exact if_pos rfl
  · rw [if_neg carried, answer]
    exact Remote.serve_failed (answer ▸ error)

variable (ports D) in
/-- A completion that ended well carries the operation out. -/
theorem Operation.respond_ok {op : Operation} (pending : r.pending = some op) :
    respond D ports r (op.completion .ok) = r.serve D op := by
  rw [op.respond_completion .ok pending]
  exact if_neg I2cStatus.noConfusion

theorem Operation.completion_read {op : Operation} {status s : I2cStatus} {tx rx : Buffer}
    (same : .writeReadCompleteIn tx rx s = op.completion status) :
    ∃ n, op.action = .read n ∧ rx = rxBuf n.toNat ∧ s = status := by
  obtain ⟨caller, address, offset, action⟩ := op
  cases action with
  | read n =>
      obtain ⟨_, rfl, rfl⟩ := Input.writeReadCompleteIn.inj same
      exact ⟨n, rfl, rfl, rfl⟩
  | write value => cases same

theorem Operation.completion_write {op : Operation} {status s : I2cStatus} {tx : Buffer}
    (same : .writeCompleteIn tx s = op.completion status) :
    ∃ value, op.action = .write value ∧ s = status := by
  obtain ⟨caller, address, offset, action⟩ := op
  cases action with
  | read n => cases same
  | write value =>
      obtain ⟨_, rfl⟩ := Input.writeCompleteIn.inj same
      exact ⟨value, rfl, rfl⟩

theorem Operation.passes (op : Operation) (status : I2cStatus) :
    (op.completion status).PassesPointer := by
  obtain ⟨caller, address, offset, action⟩ := op
  cases action <;> trivial

/-- The value of a write under way is the one to be reported. -/
theorem Underway.value_eq {op : Operation} {xs : List Transaction} {value : UInt8}
    (h : Underway t (some op) xs) (action : op.action = .write value) :
    t.writeValue = value := by
  cases h with
  | reading => cases action
  | writing writing loaded last kept =>
      obtain rfl := Action.write.inj action
      exact kept

section HandedBack

variable {next : Bus δ} {status : I2cStatus} {op : Operation} {tx rx : Buffer}

theorem HandedBack.offset_eq (back : HandedBack D t b next r m status op)
    (completion : m.completion? = some (tx, status)) : recoverRegOffset t tx = op.offset := by
  rw [back.same] at completion
  exact back.underway.recover completion

/-- A request that ended well was carried out, and the bytes returned are stored. -/
theorem HandedBack.carried (back : HandedBack D t b next r m .ok op) :
    (op.carry D r.device).status = .ok ∧ next.device = (op.carry D r.device).device ∧
      ∀ n, op.action = .read n →
        (op.carry D r.device).received = t.readBuffer.toList.take n.toNat := by
  rcases back.outcome with ⟨givenUp, _⟩ | ⟨_, answer, after, stored⟩
  · cases givenUp
  · exact ⟨answer.symm, after, stored rfl⟩

theorem Tracks.failed (follows : Follows t b r) (back : HandedBack D t b next r m status op)
    (completion : m.completion? = some (tx, status)) (error : status ≠ .ok) :
    Tracks D ports r m
      ⟨[.tlmU32 (errorCounter status).channel (t.counter (errorCounter status) + 1),
        .event (.i2cError status t.i2cAddress (recoverRegOffset t tx))],
        t.reply false, (t.bump (errorCounter status)).finished, none⟩ next := by
  have answer := Operation.respond_failed ports D back.pending error
    (back.outcome.imp_right fun h => ⟨h.1, h.2.1, h.2.2.1⟩)
  rw [← back.same] at answer
  refine ⟨rfl, ?_, ?_⟩
  · rw [answer]
    exact follows.ended _ back.left
  · rw [answer, filterMap_outputs, report_reply, ← back.underway.owner_eq,
      back.offset_eq completion]
    rfl

/-- The read was shorter than what is configured by now. -/
theorem Tracks.shortRead (follows : Follows t b r)
    (back : HandedBack D t b next r (.writeReadCompleteIn tx rx .ok) .ok op)
    (short : rx.size < t.readLength.toNat) :
    Tracks D ports r (.writeReadCompleteIn tx rx .ok)
      ⟨[.tlmU32 .shortReads (t.shortReads + 1),
        .event (.shortRead t.readLength (UInt8.ofNat rx.size))],
        t.reply false, (t.bump .shortReads).finished, none⟩ next := by
  obtain ⟨n, action, rfl, _⟩ := Operation.completion_read back.same
  obtain ⟨ok, after, _⟩ := back.carried
  have beyond : ¬r.length ≤ n := by
    rw [follows.length, UInt8.le_iff_toNat_le]
    exact Nat.not_le.mpr short
  have answer := Operation.respond_ok ports D back.pending
  rw [← back.same, Remote.serve_read action ok, if_neg beyond, ← after] at answer
  refine ⟨rfl, ?_, ?_⟩
  · rw [answer]
    exact follows.ended _ back.left
  · have actual : UInt8.ofNat (rxBuf n.toNat).size = n := UInt8.ofNat_toNat
    rw [answer, filterMap_outputs, report_reply, ← back.underway.owner_eq, follows.length, actual]
    rfl

/-- The first bytes received are handed over, as many as are configured by now. -/
theorem Tracks.readDone (follows : Follows t b r)
    (back : HandedBack D t b next r (.writeReadCompleteIn tx rx .ok) .ok op)
    (enough : t.readLength.toNat ≤ rx.size) {words : Vector UInt32 2}
    (packed : octets words = padded t.readBuffer t.readLength.toNat) :
    Tracks D ports r (.writeReadCompleteIn tx rx .ok)
      ⟨[.tlmU32 .readData0 (words.get 0), .tlmU32 .readData1 (words.get 1),
        .tlmU8 .readLength t.readLength, .tlmU32 .txnCount (t.txnCount + 1),
        .event (.readComplete (recoverRegOffset t tx) t.readLength (words.get 0) (words.get 1))],
        t.reply true, (t.bump .txnCount).finished, none⟩ next := by
  obtain ⟨n, action, rfl, _⟩ := Operation.completion_read back.same
  obtain ⟨ok, after, stored⟩ := back.carried
  have within : r.length ≤ n := by
    rw [follows.length, UInt8.le_iff_toNat_le]
    exact enough
  have answer := Operation.respond_ok ports D back.pending
  rw [← back.same, Remote.serve_read action ok, if_pos within, ← after,
    stored n action] at answer
  refine ⟨rfl, ?_, ?_⟩
  · rw [answer]
    exact follows.ended _ back.left
  · have data : (t.readBuffer.toList.take n.toNat).take r.length.toNat =
        t.readBuffer.toList.take t.readLength.toNat := by
      have fits : t.readLength.toNat ≤ n.toNat := enough
      rw [List.take_take, follows.length, Nat.min_eq_left fits]
    rw [answer, filterMap_outputs, report_reply, ← back.underway.owner_eq, data,
      ← unpack_packed follows.legal.length packed, ← back.offset_eq rfl]
    rfl

theorem Tracks.writeDone (follows : Follows t b r)
    (back : HandedBack D t b next r (.writeCompleteIn tx .ok) .ok op) :
    Tracks D ports r (.writeCompleteIn tx .ok)
      ⟨[.tlmU32 .txnCount (t.txnCount + 1),
        .event (.writeComplete (recoverRegOffset t tx) t.writeValue)],
        t.reply true, (t.bump .txnCount).finished, none⟩ next := by
  obtain ⟨value, action, _⟩ := Operation.completion_write back.same
  obtain ⟨ok, after, _⟩ := back.carried
  have answer := Operation.respond_ok ports D back.pending
  rw [← back.same, Remote.serve_write action ok, ← after] at answer
  refine ⟨rfl, ?_, ?_⟩
  · rw [answer]
    exact follows.ended _ back.left
  · rw [answer, filterMap_outputs, report_reply, ← back.underway.owner_eq, ← back.offset_eq rfl,
      ← back.underway.value_eq action]
    rfl

end HandedBack

/-- A completion ends the operation under way on both sides. -/
theorem Follows.completion (follows : Follows t b r) {device : δ} {next : Bus δ} {tx : Buffer}
    {status : I2cStatus} (received : (bus D device).recv m t b = some next)
    (turn : TurnCase ports t m e) (completion : m.completion? = some (tx, status)) :
    Tracks D ports r m e ((bus D device).exit e next) := by
  obtain ⟨op, back⟩ := follows.handed_back completion received
  cases turn.of_completion (by simp [completion]) with
  | stray pointer =>
      rw [back.same] at pointer
      exact absurd (op.passes status) pointer
  | failed completion' pointer error =>
      cases completion.symm.trans completion'
      rw [bus_exit_quiet (reply_request _)]
      exact .failed follows back completion error
  | shortRead pointer short =>
      cases completion
      rw [bus_exit_quiet (reply_request _)]
      exact .shortRead follows back short
  | readDone pointer enough packed =>
      cases completion
      rw [bus_exit_quiet (reply_request _)]
      exact .readDone follows back enough packed
  | writeDone =>
      cases completion
      rw [bus_exit_quiet (reply_request _)]
      exact .writeDone follows back

end Turns

/-- Each turn within the contract of the bus is matched by the remote machine. -/
theorem remote_refines (D : Device δ) (ports : Ports) (device : δ) :
    Refines (component ports) (bus D device) (remote D ports device) downlink Follows where
  turn := by
    intro t b next r m follows received
    have turn := component_turn ports follows.legal m
    have tracks : Tracks D ports r m ((component ports).turn m t)
        ((bus D device).exit ((component ports).turn m t) next) := by
      cases completion : m.completion? with
      | none => exact follows.entry received turn completion
      | some c => exact follows.completion received turn completion
    rw [run_stimulus]
    exact ⟨tracks.running, tracks.follows, tracks.reports⟩
  back := id

theorem remote_matches (D : Device δ) (ports : Ports) (device : δ) (calls : List (Call Input))
    {b : Bus δ} (contract : (bus D device).replay (execute ports calls).log = some b) :
    Matches (bus D device) (remote D ports device) downlink Follows (execute ports calls) b := by
  have start : Follows init (bus D device).start (remote D ports device).start :=
    ⟨init_legal, rfl, rfl, rfl, rfl, rfl, rfl, .idle rfl⟩
  exact (remote_refines D ports device).runAll (component_callsLast ports) start calls contract

/-- The component gives remote access to the device: with any device and any driver that
keeps the contract, however ticks, commands and completions are ordered and nested, and
whatever the transfers it gives up have done to the device, the events and responses the
ground gets are exactly the remote machine's, in the same order. At the end the device,
the settings and the operation under way are the machine's, and the board has not
stopped. -/
theorem remote_access (D : Device δ) (ports : Ports) (device : δ) (calls : List (Call Input))
    {b : Bus δ} (contract : (bus D device).replay (execute ports calls).log = some b) :
    (execute ports calls).fault = none ∧
    downlink.reports (execute ports calls).log =
      ((remote D ports device).run (downlink.stimuli (execute ports calls).log)
        (remote D ports device).start).2 ∧
    Follows (execute ports calls).state b
      ((remote D ports device).run (downlink.stimuli (execute ports calls).log)
        (remote D ports device).start).1 := by
  have matched := remote_matches D ports device calls contract
  exact ⟨matched.running, matched.reports, matched.related⟩

/-- A byte is written and read back from an EEPROM. The read finds the write still under
way at first, is shortened while it is in flight, and its answer starts a tick whose
read is given up. A second write is given up too, but its byte is there when read. -/
def writeReadBack : List (Call Input) :=
  [.mk (.configure 0x50 0x10 2) [], .mk (.command 1 1 (.setPolling true)) [],
    .mk (.command 3 2 (.writeOnce 0x7F)) [], .mk (.command 2 3 .readOnce) [],
    .mk (.writeCompleteIn (txBuf 2) .ok) [], .mk (.command 2 4 .readOnce) [],
    .mk (.command 4 5 (.setRegister 0x11 1)) [], .mk (.storeReadBuffer 0 0x7F) [],
    .mk (.writeReadCompleteIn (txBuf 1) (rxBuf 2) .ok) [[.mk .schedIn []]],
    .mk (.writeReadCompleteIn (txBuf 1) (rxBuf 1) .otherErr) [],
    .mk (.command 3 6 (.writeOnce 0x2A)) [], .mk (.writeCompleteIn (txBuf 2) .otherErr) [],
    .mk (.command 2 7 .readOnce) [], .mk (.storeReadBuffer 0 0x2A) [],
    .mk (.writeReadCompleteIn (txBuf 1) (rxBuf 1) .ok) []]

/-- The EEPROM, erased, with what becomes of the first two transfers given up. -/
def erased : Registers × List Bool := (fun _ => 0, [false, true])

theorem remote_access_readBack :
    downlink.reports (execute ⟨true, true⟩ writeReadBack).log =
      ((remote (eeprom 0x50).marked ⟨true, true⟩ erased).run
        (downlink.stimuli (execute ⟨true, true⟩ writeReadBack).log)
        (remote (eeprom 0x50).marked ⟨true, true⟩ erased).start).2 ∧
    downlink.reports (execute ⟨true, true⟩ writeReadBack).log =
      [.response 1 1 .ok, .busy .readCmd .writeCmd, .response 2 3 .executionError,
        .wrote 0x10 0x7F, .response 3 2 .ok, .response 4 5 .ok, .read 0x10 [0x7F],
        .response 2 4 .ok, .failed .otherErr 0x11, .failed .otherErr 0x11,
        .response 3 6 .executionError, .read 0x11 [0x2A], .response 2 7 .ok] := by
  obtain ⟨_, reports, _⟩ :=
    remote_access (eeprom 0x50).marked ⟨true, true⟩ erased writeReadBack rfl
  exact ⟨reports, by decide⟩

end CuriosityReference.I2cTester
