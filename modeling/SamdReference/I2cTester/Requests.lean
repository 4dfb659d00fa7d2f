import SamdReference.I2cTester.Driver

/-!
# Requests are legal and authorised

A request needs a component that was configured and a command or an enabled tick.
Both guards are members of the component, so each is tied to the entries that set
it; the rest is what the turn of a request does.
-/

namespace CuriosityReference.I2cTester

open Reentrant (World Call Obs)

/-- The argument of a `SET_POLLING` command. -/
def Input.polling? : Input → Option Bool
  | .command _ _ (.setPolling enable) => some enable
  | _ => none

/-- The argument of the last `SET_POLLING` command, if there was one. -/
def lastPolling (log : History) : Option Bool :=
  (log.filterMap fun
    | .recv m _ => m.polling?
    | _ => none).getLast?

/-- Some `configure` call had both arguments in range. -/
def Configured (log : History) : Prop :=
  ∃ addr reg len t, .recv (.configure addr reg len) t ∈ log ∧ LegalAddress addr ∧
    LegalLength len

/-- An entry that stands for the ground's wish to have something on the bus. -/
def Commanded (log : History) : Input → Prop
  | .command _ _ .readOnce => True
  | .command _ _ (.writeOnce _) => True
  | .schedIn => lastPolling log = some true
  | _ => False

/-- What a request caused by `m` asks the driver for, with the members at the call. -/
def Request.Proper (m : Input) (t : I2cTester) : Request → Prop
  | .writeRead addr tx rx =>
      0x08 ≤ addr.toNat ∧ addr.toNat ≤ 0x77 ∧ tx = txBuf 1 ∧ t.writeBuffer.get 0 = t.regOffset ∧
        rx.data = .readBuffer 0 ∧ 1 ≤ rx.size ∧ rx.size ≤ 8 ∧
        ∀ i : Fin 8, i.val < rx.size → t.readBuffer.get i = 0
  | .write addr wr =>
      0x08 ≤ addr.toNat ∧ addr.toNat ≤ 0x77 ∧ wr = txBuf 2 ∧
        ∃ opCode cmdSeq value, m = .command opCode cmdSeq (.writeOnce value) ∧
          t.writeBuffer = #v[t.regOffset, value]

section Guards

variable {ports : Ports} {t : I2cTester} {m : Input} {e : Effect}

theorem lastPolling_turn (log : History) (m : Input) (t : I2cTester) (e : Effect) :
    lastPolling (log ++ .recv m t :: e.log) = m.polling?.or (lastPolling log) := by
  rw [lastPolling, Reentrant.Log.filterMap_turn (fun _ => rfl) (fun _ _ => rfl),
    List.getLast?_append]
  cases h : m.polling? <;> simp [h, lastPolling]

/-- Only `SET_POLLING` changes the polling flag. -/
theorem TurnCase.polling_eq (turn : TurnCase ports t m e) :
    e.state.polling = m.polling?.getD t.polling := by
  cases setting : m.polling? with
  | some enable =>
      obtain ⟨opCode, cmdSeq, rfl⟩ :
          ∃ opCode cmdSeq, m = .command opCode cmdSeq (.setPolling enable) := by
        cases m with
        | command opCode cmdSeq cmd =>
            cases cmd with
            | setPolling enable' =>
                obtain rfl := Option.some.inj setting
                exact ⟨opCode, cmdSeq, rfl⟩
            | _ => cases setting
        | _ => cases setting
      cases turn with
      | refused refusal => cases refusal
      | settings accepted => cases accepted
      | polling => rfl
      | busy attempt => cases attempt
      | issued attempt => cases attempt
      | unwired attempt => cases attempt
      | stray pointer => exact absurd trivial pointer
      | failed completion => cases completion
  | none =>
      change e.state.polling = t.polling
      cases turn with
      | @settings _ u accepted =>
          have same : u.polling = t.polling := by rw [settings_only accepted]
          exact same
      | polling => cases setting
      | busy => exact bump_polling t _
      | issued => exact (prepared_settings t m).2.2.2.2
      | unwired =>
          exact (bump_polling (t.prepared m) _).trans (prepared_settings t m).2.2.2.2
      | failed => exact bump_polling t _
      | shortRead => exact bump_polling t _
      | readDone => exact bump_polling t _
      | writeDone => exact bump_polling t _
      | _ => rfl

/-- Only a successful `configure` marks the component as configured. -/
theorem TurnCase.configured (turn : TurnCase ports t m e)
    (loaded : e.state.configLoaded = true) :
    t.configLoaded = true ∨
      ∃ addr reg len, m = .configure addr reg len ∧ LegalAddress addr ∧ LegalLength len := by
  cases turn with
  | settings accepted =>
      obtain ⟨addr, reg, len, rfl, address, length, _⟩ | ⟨_, _, _, _, _, rfl⟩ |
        ⟨_, _, _, _, _, _, rfl⟩ := settings_cases accepted
      · exact .inr ⟨addr, reg, len, rfl, address, length⟩
      · exact .inl loaded
      · exact .inl loaded
  | busy => exact .inl ((bump_configLoaded t _).symm.trans loaded)
  | issued => exact .inl ((prepared_settings t m).2.2.2.1.symm.trans loaded)
  | unwired =>
      refine .inl ((prepared_settings t m).2.2.2.1.symm.trans ?_)
      exact (bump_configLoaded (t.prepared m) _).symm.trans loaded
  | failed => exact .inl ((bump_configLoaded t _).symm.trans loaded)
  | shortRead => exact .inl ((bump_configLoaded t _).symm.trans loaded)
  | readDone => exact .inl ((bump_configLoaded t _).symm.trans loaded)
  | writeDone => exact .inl ((bump_configLoaded t _).symm.trans loaded)
  | _ => exact .inl loaded

/-- Nothing takes the configuration back. -/
theorem TurnCase.stays_configured (turn : TurnCase ports t m e)
    (loaded : t.configLoaded = true) : e.state.configLoaded = true := by
  cases turn with
  | settings accepted =>
      obtain ⟨_, _, _, _, _, _, rfl⟩ | ⟨_, _, _, _, _, rfl⟩ | ⟨_, _, _, _, _, _, rfl⟩ :=
        settings_cases accepted
      · rfl
      · exact loaded
      · exact loaded
  | busy => exact (bump_configLoaded t _).trans loaded
  | issued => exact (prepared_settings t m).2.2.2.1.trans loaded
  | unwired =>
      refine (bump_configLoaded (t.prepared m) _).trans ?_
      exact (prepared_settings t m).2.2.2.1.trans loaded
  | failed => exact (bump_configLoaded t _).trans loaded
  | shortRead => exact (bump_configLoaded t _).trans loaded
  | readDone => exact (bump_configLoaded t _).trans loaded
  | writeDone => exact (bump_configLoaded t _).trans loaded
  | _ => exact loaded

end Guards

/-- The two guards say what the ground last asked for. -/
theorem guards_kept (ports : Ports) :
    Kept ports fun w => (w.state.configLoaded = true → Configured w.log) ∧
      w.state.polling = (lastPolling w.log).getD false where
  turn := by
    intro t log m e _ holds turn
    constructor
    · intro loaded
      obtain before | ⟨addr, reg, len, rfl, address, length⟩ := turn.configured loaded
      · obtain ⟨addr, reg, len, u, member, legal⟩ := holds.1 before
        exact ⟨addr, reg, len, u, List.mem_append_left _ member, legal⟩
      · exact ⟨addr, reg, len, t, by simp, address, length⟩
    · have before : t.polling = (lastPolling log).getD false := holds.2
      rw [lastPolling_turn]
      change e.state.polling = _
      rw [turn.polling_eq, before]
      cases m.polling? <;> rfl
  back := by
    intro t log o holds
    constructor
    · intro loaded
      obtain ⟨addr, reg, len, u, member, legal⟩ := holds.1 loaded
      exact ⟨addr, reg, len, u, List.mem_append_left _ member, legal⟩
    · have same : lastPolling (log ++ [.back o]) = lastPolling log := by
        simp [lastPolling]
      rw [same]
      exact holds.2

/-- An attempt is authorised when the guards say what the ground last asked for. -/
theorem commanded_of_attempt {t : I2cTester} {m : Input} {log : History} {op : State}
    (polled : t.polling = (lastPolling log).getD false) (attempt : t.attempt? m = some op) :
    t.configLoaded = true ∧ Commanded log m := by
  obtain ⟨loaded, ⟨rfl, _, polling⟩ | ⟨_, _, rfl, _⟩ | ⟨_, _, _, rfl, _⟩⟩ :=
    attempt_cases attempt
  · refine ⟨loaded, ?_⟩
    show lastPolling log = some true
    rw [polling] at polled
    cases last : lastPolling log with
    | none => simp [last] at polled
    | some enable => simpa [last] using polled.symm
  · exact ⟨loaded, trivial⟩
  · exact ⟨loaded, trivial⟩

section Proper

variable {t : I2cTester} {m : Input}

theorem LegalAddress.toNat {addr : UInt8} (h : LegalAddress addr) :
    0x08 ≤ addr.toUInt32.toNat ∧ addr.toUInt32.toNat ≤ 0x77 := by
  rw [UInt8.toNat_toUInt32]
  exact ⟨UInt8.le_iff_toNat_le.mp h.1, UInt8.le_iff_toNat_le.mp h.2⟩

/-- The receive storage of a prepared read is zero as far as it is lent. -/
theorem loadRead_cleared (t : I2cTester) (i : Fin 8) (h : i.val < t.readLength.toNat) :
    t.loadRead.readBuffer.get i = 0 := by
  rw [loadRead, get_cleared, if_pos h]

theorem loadRead_offset (t : I2cTester) : t.loadRead.writeBuffer.get 0 = t.regOffset := by
  simp [loadRead]

theorem loadWrite_bytes (t : I2cTester) (value : UInt8) :
    (t.loadWrite value).writeBuffer = #v[t.regOffset, value] := by
  have bytes : ∀ i : Fin 2, i = 0 ∨ i = 1 := by decide
  apply buffer_ext
  intro i
  obtain rfl | rfl := bytes i
  · change (setByte (setByte t.writeBuffer 0 t.regOffset) 1 value).get 0 = t.regOffset
    simp
  · change (setByte (setByte t.writeBuffer 0 t.regOffset) 1 value).get 1 = value
    simp

/-- A request made from legal settings is what the driver may be asked for. -/
theorem proper_request {op : State} (legal : t.Legal) (attempt : t.attempt? m = some op)
    {r : Request} (made : ((t.prepared m).request op).request? = some r) :
    r.Proper m (t.prepared m) := by
  have address := legal.address.toNat
  have length := legal.length.toNat
  obtain ⟨_, ⟨rfl, rfl, _⟩ | ⟨_, _, rfl, rfl⟩ | ⟨opCode, cmdSeq, value, rfl, rfl⟩⟩ :=
    attempt_cases attempt
  · obtain rfl := Option.some.inj made
    refine ⟨address.1, address.2, rfl, loadRead_offset _, rfl, length.1, length.2, ?_⟩
    intro i inside
    exact loadRead_cleared _ i inside
  · obtain rfl := Option.some.inj made
    refine ⟨address.1, address.2, rfl, loadRead_offset _, rfl, length.1, length.2, ?_⟩
    intro i inside
    exact loadRead_cleared _ i inside
  · obtain rfl := Option.some.inj made
    exact ⟨address.1, address.2, rfl, opCode, cmdSeq, value, rfl, loadWrite_bytes _ value⟩

end Proper

/-- Every request ever made follows a successful `configure`, is caused by the
handler of a `READ_ONCE`, a `WRITE_ONCE` or a tick while the last `SET_POLLING`
enabled ticks, and asks for a legal transfer of exactly the bytes it should. The
assertion on the read length and every bound on a buffer hold in all runs. -/
theorem requests_legal_and_authorised (ports : Ports) (calls : List (Call Input)) :
    (∀ pre o u post r, (execute ports calls).log = pre ++ .call o u :: post →
      o.request? = some r →
      ∃ before m t, ∃ notes : List Note, pre = before ++ .recv m t :: notes.map .out ∧
        Configured before ∧ Commanded before m ∧ r.Proper m u) ∧
    ((execute ports calls).fault = none ∨
      (execute ports calls).fault = some .receivePointer) := by
  refine ⟨?_, fault_cases ports calls⟩
  intro pre o u post r split made
  obtain ⟨before, m, t, rest, e, notes, located, legal, guards, turn, produced⟩ :=
    (guards_kept ports).at_output ⟨by simp [World.start, init], rfl⟩ split rfl
  have member : .call o u ∈ (e.log : History) := by
    rw [produced]
    simp
  obtain ⟨op, attempt, _, rfl, rfl⟩ := turn.request_made member (by simp [made])
  obtain ⟨loaded, commanded⟩ := commanded_of_attempt guards.2 attempt
  exact ⟨before, m, t, notes, located, guards.1 loaded, commanded,
    proper_request legal attempt made⟩

end CuriosityReference.I2cTester
